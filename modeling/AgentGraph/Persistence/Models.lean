import AgentGraph.Persistence.Migrations

/-! # The tables of the models

Each model declares the table that its rows are in. A column that only refers to another one has
the type of that one.
-/
set_option autoImplicit false
namespace AgentGraph.Persistence.Models

open SchemaChange Migrations

def agentStatus : ColumnType := .enumeration ["idle","running","error"]
def runStatus : ColumnType := .enumeration ["queued","running","succeeded","failed","cancelled"]
def nodeRole : ColumnType := .enumeration ["core","worker"]
def nodeStatus : ColumnType := .enumeration ["registered","online","offline","disabled"]
def checkpointReason : ColumnType := .enumeration ["created","running","succeeded","failed","cancelled"]
def actionLedgerStatus : ColumnType := .enumeration ["intent_recorded","started","confirmed","failed","uncertain"]
def recoveryOutcome : ColumnType :=
  .enumeration ["stopped_no_replay","blocked_uncertain_action","blocked_corrupt_checkpoint","blocked_no_checkpoint"]
def visionMode : ColumnType := .enumeration ["describe","detailed","ocr","objects","grounding","ui","custom"]
def visionAnalysisStatus : ColumnType := .enumeration ["queued","running","completed","failed"]
def userRole : ColumnType := .enumeration ["owner","admin","operator"]
def deviceTrust : ColumnType := .enumeration ["limited","trusted"]
def authenticationStrength : ColumnType := .enumeration ["passkey","passkey_totp","development"]
def challengeKind : ColumnType := .enumeration ["passkey_registration","passkey_authentication"]
def securityApprovalDecision : ColumnType := .enumeration ["allow_once","allow_for_task","reject","modify"]
def grantStatus : ColumnType := .enumeration ["active","consumed","revoked","expired"]
def lockdownState : ColumnType := .enumeration ["normal","locked_down"]

/-- `index=True` makes an index that is named after the table and the column. On a column with
`unique=True` it is a unique index, and takes the place of the constraint. -/
def table (name : String) (columns : List (Column (Option ColumnType))) (uniques : List (List String)) (indexed : List String) :
    TableSchema (Option ColumnType) where
  name := name
  columns := columns.map fun column => if indexed.contains column.name then { column with unique := false } else column
  uniques := uniques
  indexes := indexed.map fun key =>
    { index ("ix_" ++ name ++ "_" ++ key) [key] with unique := columns.any fun column => column.name == key && column.unique }

def agentRecord : TableSchema (Option ColumnType) := table "agents" [
    key "id" (some (.string 36)), required "name" (some (.string 200)), optional "description" (some .text),
    required "status" (some agentStatus), required "model_ref" (some (.string 500)),
    required "graph_definition" (some .json), required "created_at" (some .dateTime), required "updated_at" (some .dateTime)]
    [] []

def agentRunRecord : TableSchema (Option ColumnType) := table "agent_runs" [
    key "id" (some (.string 36)), references (required "agent_id" none) "agents" "id" .cascade,
    required "status" (some runStatus), required "input_text" (some .text), optional "output_text" (some .text),
    optional "error" (some .text), required "created_at" (some .dateTime), optional "started_at" (some .dateTime),
    optional "finished_at" (some .dateTime), optional "provider_id" (some (.string 100)),
    optional "model_id" (some (.string 500)), optional "finish_reason" (some (.string 100)),
    optional "input_tokens" (some .integer), optional "output_tokens" (some .integer),
    optional "total_tokens" (some .integer), optional "latency_ms" (some .integer), optional "execution_spec" (some .json)]
    [] ["agent_id","status"]

def runDelegationRecord : TableSchema (Option ColumnType) := table "run_delegations" [
    key "id" (some (.string 36)), references (required "parent_run_id" none) "agent_runs" "id" .cascade,
    references (unique (required "child_run_id" none)) "agent_runs" "id" .cascade, required "node_id" (some (.string 100)),
    required "depth" (some .integer), required "created_at" (some .dateTime)]
    [["parent_run_id","node_id"]] ["parent_run_id","child_run_id"]

def nodeRecord : TableSchema (Option ColumnType) := table "nodes" [
    key "id" (some (.string 100)), required "name" (some (.string 200)), required "role" (some nodeRole),
    required "status" (some nodeStatus), required "enabled" (some .boolean), required "enrollment_hash" (some (.string 64)),
    required "capabilities" (some .json), required "created_at" (some .dateTime), required "updated_at" (some .dateTime),
    optional "last_seen_at" (some .dateTime)] [] ["status"]

def runCheckpointRecord : TableSchema (Option ColumnType) := table "run_checkpoints" [
    key "id" (some (.string 36)), references (required "run_id" none) "agent_runs" "id" .cascade,
    required "sequence" (some .integer), required "format_version" (some .integer),
    required "reason" (some checkpointReason), required "state" (some .json), required "checksum" (some (.string 64)),
    required "created_at" (some .dateTime)] [["run_id","sequence"]] ["run_id"]

def runActionLedgerEntryRecord : TableSchema (Option ColumnType) := table "run_action_ledger_entries" [
    key "id" (some (.string 36)), references (required "run_id" none) "agent_runs" "id" .cascade,
    references (unique (optional "tool_invocation_id" none)) "tool_invocations" "id" .setNull,
    required "action_type" (some (.string 100)), required "risk" (some (.string 20)),
    required "status" (some actionLedgerStatus), required "metadata" (some .json),
    required "rollback_status" (some (.string 30)), required "created_at" (some .dateTime),
    optional "started_at" (some .dateTime), optional "finished_at" (some .dateTime)] [] ["run_id"]

def runRecoveryDecisionRecord : TableSchema (Option ColumnType) := table "run_recovery_decisions" [
    key "id" (some (.string 36)), references (required "run_id" none) "agent_runs" "id" .cascade,
    references (optional "checkpoint_id" none) "run_checkpoints" "id" .setNull, required "outcome" (some recoveryOutcome),
    required "details" (some .json), required "created_at" (some .dateTime)] [] ["run_id"]

def visionAssetRecord : TableSchema (Option ColumnType) := table "vision_assets" [
    key "id" (some (.string 36)), required "filename" (some (.string 255)), required "mime_type" (some (.string 100)),
    required "size_bytes" (some .integer), unique (required "sha256" (some (.string 64))),
    required "source_type" (some (.string 30)), unique (required "storage_locator" (some (.string 255))),
    required "created_at" (some .dateTime)] [] ["sha256"]

def visionAnalysisRecord : TableSchema (Option ColumnType) := table "vision_analyses" [
    key "id" (some (.string 36)), references (required "asset_id" none) "vision_assets" "id" .cascade,
    required "provider_id" (some (.string 100)), required "model_id" (some (.string 500)),
    required "mode" (some visionMode), optional "prompt" (some .text), required "status" (some visionAnalysisStatus),
    optional "raw_text" (some .text), optional "description" (some .text), optional "ocr_text" (some .text),
    optional "structured_result" (some .json), optional "latency_ms" (some .integer),
    optional "error_code" (some (.string 100)), required "created_at" (some .dateTime),
    optional "completed_at" (some .dateTime)] [] ["asset_id"]

def visionFolderRecord : TableSchema (Option ColumnType) := table "vision_folders" [
    key "id" (some (.string 36)), required "display_name" (some (.string 200)), unique (required "root" (some .text)),
    required "enabled" (some .boolean), required "created_at" (some .dateTime)] [] []

def memoryRecordRecord : TableSchema (Option ColumnType) := table "memory_records" [
    key "id" (some (.string 36)), required "project_id" (some (.string 100)),
    references (required "agent_id" none) "agents" "id" .cascade, required "kind" (some (.string 20)),
    required "content" (some .text), required "tags" (some .json), required "created_at" (some .dateTime),
    required "updated_at" (some .dateTime), optional "deleted_at" (some .dateTime)] [] ["project_id","agent_id"]

def runMemoryRecord : TableSchema (Option ColumnType) := table "run_memory_records" [
    key "id" (some (.string 36)), references (required "run_id" none) "agent_runs" "id" .cascade,
    references (optional "memory_id" none) "memory_records" "id" .setNull,
    required "memory_id_snapshot" (some (.string 36)), required "rank" (some .integer), optional "score" (some .float)]
    [] ["run_id","memory_id"]

def toolInvocationRecord : TableSchema (Option ColumnType) := table "tool_invocations" [
    key "id" (some (.string 36)), references (required "run_id" none) "agent_runs" "id" .cascade,
    required "tool_id" (some (.string 100)), required "risk" (some (.string 20)), required "status" (some (.string 30)),
    optional "approval_id" (some (.string 100)), required "input_metadata" (some .json),
    optional "output_metadata" (some .json), optional "error_code" (some (.string 100)),
    required "started_at" (some .dateTime), optional "finished_at" (some .dateTime), optional "duration_ms" (some .integer)]
    [] ["run_id"]

def userRecord : TableSchema (Option ColumnType) := table "users" [
    key "id" (some (.string 36)), unique (required "username" (some (.string 200))), required "role" (some userRole),
    optional "disabled_at" (some .dateTime), required "created_at" (some .dateTime)] [] []

def deviceRecord : TableSchema (Option ColumnType) := table "security_devices" [
    key "id" (some (.string 36)), references (required "user_id" none) "users" "id" .cascade,
    required "display_name" (some (.string 200)), required "trust" (some deviceTrust),
    optional "revoked_at" (some .dateTime), optional "last_authenticated_at" (some .dateTime),
    required "created_at" (some .dateTime)] [] ["user_id"]

def sessionRecord : TableSchema (Option ColumnType) := table "auth_sessions" [
    key "id" (some (.string 36)), references (required "user_id" none) "users" "id" .cascade,
    references (required "device_id" none) "security_devices" "id" .cascade,
    unique (required "token_hash" (some (.string 64))), required "strength" (some authenticationStrength),
    required "expires_at" (some .dateTime), required "last_activity_at" (some .dateTime),
    optional "step_up_at" (some .dateTime), optional "revoked_at" (some .dateTime), required "created_at" (some .dateTime)]
    [] ["user_id","device_id"]

def passkeyCredentialRecord : TableSchema (Option ColumnType) := table "passkey_credentials" [
    key "id" (some (.string 36)), references (required "user_id" none) "users" "id" .cascade,
    references (required "device_id" none) "security_devices" "id" .cascade,
    unique (required "credential_id" (some .binary)), required "public_key" (some .binary),
    required "sign_count" (some .integer), optional "revoked_at" (some .dateTime), required "created_at" (some .dateTime)]
    [] ["user_id","device_id"]

def authChallengeRecord : TableSchema (Option ColumnType) := table "auth_challenges" [
    key "id" (some (.string 36)), required "kind" (some challengeKind), unique (required "challenge" (some .binary)),
    references (optional "user_id" none) "users" "id" .cascade, optional "device_name" (some (.string 200)),
    required "expires_at" (some .dateTime), optional "consumed_at" (some .dateTime), required "created_at" (some .dateTime)]
    [] ["user_id"]

def secondFactorRecord : TableSchema (Option ColumnType) := table "second_factors" [
    references (key "user_id" none) "users" "id" .cascade, required "encrypted_secret" (some .binary),
    required "key_version" (some .integer), required "enabled_at" (some .dateTime), optional "revoked_at" (some .dateTime)] [] []

def securityApprovalRecord : TableSchema (Option ColumnType) := table "security_approvals" [
    key "id" (some (.string 36)), required "project_id" (some (.string 100)), required "requested_by" (some (.string 200)),
    required "action" (some (.string 200)), optional "target" (some (.string 500)), optional "run_id" (some (.string 36)),
    optional "task_ref" (some (.string 100)), optional "risk" (some (.string 30)), required "reason" (some .text),
    required "scope" (some .json), required "status" (some (.string 20)), required "expires_at" (some .dateTime),
    optional "decision" (some securityApprovalDecision),
    references (optional "decided_by_user_id" none) "users" "id" .setNull, optional "decided_at" (some .dateTime),
    required "created_at" (some .dateTime)] [] []

def grantRecord : TableSchema (Option ColumnType) := table "security_grants" [
    key "id" (some (.string 36)), references (required "issuer_user_id" none) "users" "id" .cascade,
    required "subject" (some (.string 200)), required "action" (some (.string 200)), optional "target" (some (.string 500)),
    optional "run_id" (some (.string 36)), optional "task_ref" (some (.string 100)),
    references (optional "device_id" none) "security_devices" "id" .setNull,
    references (optional "source_approval_id" none) "security_approvals" "id" .setNull,
    required "status" (some grantStatus), required "expires_at" (some .dateTime), optional "revoked_at" (some .dateTime),
    required "created_at" (some .dateTime)] [] []

def vaultCredentialRecord : TableSchema (Option ColumnType) := table "vault_credentials" [
    key "id" (some (.string 36)), unique (required "name" (some (.string 200))),
    required "credential_type" (some (.string 100)), required "encrypted_value" (some .binary),
    required "key_version" (some .integer), optional "revoked_at" (some .dateTime),
    references (required "created_by_user_id" none) "users" "id" .restrict, required "created_at" (some .dateTime),
    required "updated_at" (some .dateTime)] [] []

def securityAuditRecord : TableSchema (Option ColumnType) := table "security_audit_events" [
    key "id" (some (.string 36)), required "event_type" (some (.string 100)),
    references (optional "actor_user_id" none) "users" "id" .setNull,
    references (optional "session_id" none) "auth_sessions" "id" .setNull,
    references (optional "device_id" none) "security_devices" "id" .setNull, optional "target" (some (.string 500)),
    required "result" (some (.string 30)), required "metadata" (some .json), required "created_at" (some .dateTime)]
    [] ["event_type"]

def securityStateRecord : TableSchema (Option ColumnType) := table "security_state" [
    key "id" (some .integer), required "lockdown" (some lockdownState), required "updated_at" (some .dateTime)] [] []

def models : Schema (Option ColumnType) := [
  agentRecord, agentRunRecord, runDelegationRecord, nodeRecord, runCheckpointRecord, runActionLedgerEntryRecord,
  runRecoveryDecisionRecord, visionAssetRecord, visionAnalysisRecord, visionFolderRecord, memoryRecordRecord,
  runMemoryRecord, toolInvocationRecord, userRecord, deviceRecord, sessionRecord, passkeyCredentialRecord,
  authChallengeRecord, secondFactorRecord, securityApprovalRecord, grantRecord, vaultCredentialRecord, securityAuditRecord,
  securityStateRecord]

end AgentGraph.Persistence.Models
