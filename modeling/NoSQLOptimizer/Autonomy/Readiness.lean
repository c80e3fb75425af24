import NoSQLOptimizer.ControlPlane.Tables

namespace NoSQLOptimizer.Autonomy

open ControlPlane

structure AutonomyReadinessRow where
  actionFamily : String
  authority : ActionAuthority

def autonomyReadinessMatrix : List AutonomyReadinessRow :=
  [⟨"CREATE_INDEX", .autoEligibleAfterAdmission⟩,
    ⟨"SET_QUERY_SETTINGS_INDEX_HINT", .autoEligibleAfterAdmission⟩,
    ⟨"OPTIMIZER_OWNED_EXACT_INVERSE", .optimizerOwnedInverseOnly⟩,
    ⟨"PRE_EXISTING_INDEX_CHANGE", .permanentlyHumanGated⟩,
    ⟨"HUMAN_QUERY_SETTINGS_CHANGE", .permanentlyHumanGated⟩,
    ⟨"SERVER_REPLICA_SHARD_STORAGE_DURABILITY_CONSISTENCY_CONFIG", .permanentlyHumanGated⟩,
    ⟨"SCHEMA_MIGRATION_OR_APPLICATION_REWRITE_DEPLOYMENT", .permanentlyHumanGated⟩,
    ⟨"QUERY_AGGREGATION_SCHEMA_DENORMALIZATION_SHARD_KEY_DATA_MIGRATION", .recommendationOnly⟩,
    ⟨"DOCUMENT_WRITE_OR_DESTRUCTIVE_DATABASE_OPERATION", .forbidden⟩,
    ⟨"TTL_INDEX_OR_QUERY_REJECTION_OR_SECURITY_WEAKENING", .forbidden⟩]

def autoEligibleActions : List String :=
  (autonomyReadinessMatrix.filter (·.authority = .autoEligibleAfterAdmission)).map (·.actionFamily)

def environmentBinding (targetId : TargetId) (target : Target)
    (capability : Option CapabilitySnapshot) (credential : Option TargetCredential) :
    TargetIdentity × String × SecurityFingerprint :=
  (⟨targetId, target.connectionLabel, target.deploymentMode, target.state, target.isActive⟩,
    (capability.map (·.fingerprint)).getD "NO_CAPABILITY_SNAPSHOT",
    ⟨credential.map (·.id), credential.map (·.keyVersion), credential.map (·.credentialType)⟩)

/-- The evidence an authority decision binds, as the rows of one moment give it. -/
def authorityIntegrityFingerprint (r : RunId) (candidateId : CandidateId)
    (candidateFingerprint : String) (deploymentMode : DeploymentMode)
    (authorityType : AuthorityType) (authorityReason : String)
    (telemetryEligible admissionProductionEligible : Bool)
    (binding : TargetIdentity × String × SecurityFingerprint) : IntegrityFingerprint :=
  ⟨r, candidateId, candidateFingerprint, deploymentMode, authorityType, authorityReason,
    telemetryEligible, admissionProductionEligible, binding.1, binding.2.1, binding.2.2⟩

end NoSQLOptimizer.Autonomy
