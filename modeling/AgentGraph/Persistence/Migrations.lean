import AgentGraph.Foundation.SchemaChange

/-! # The revisions of the database

The statements of each revision, in their order, and those of its downgrade.
-/
set_option autoImplicit false
namespace AgentGraph.Persistence.Migrations

open SchemaChange

/-- An enumeration that is not native is a string of one of its values. -/
inductive ColumnType
  | string (length : ℕ)
  | text | json | dateTime | integer | float | boolean | binary
  | enumeration (values : List String)
deriving DecidableEq

section Columns
variable {T : Type}

def required (name : String) (type : T) : Column T := ⟨name,type,false,false,false,none⟩

def optional (name : String) (type : T) : Column T := ⟨name,type,true,false,false,none⟩

def key (name : String) (type : T) : Column T := ⟨name,type,false,true,false,none⟩

def unique (column : Column T) : Column T := { column with unique := true }

def references (column : Column T) (table target : String) (onDelete : OnDelete) : Column T :=
  { column with references := some ⟨table,target,onDelete⟩ }

end Columns

def index (name : String) (columns : List String) : Index := ⟨name,columns,false,none⟩

/-- Revision 20260811_0001. -/
def backendCore : Revision ColumnType where
  upgrade := [
    .createTable "agents" [
      key "id" (.string 36), required "name" (.string 200), optional "description" .text,
      required "status" (.enumeration ["idle","running","error"]), required "model_ref" (.string 500),
      required "graph_definition" .json, required "created_at" .dateTime, required "updated_at" .dateTime] [],
    .createTable "agent_runs" [
      key "id" (.string 36), references (required "agent_id" (.string 36)) "agents" "id" .cascade,
      required "status" (.enumeration ["queued","running","succeeded","failed","cancelled"]), required "input_text" .text,
      optional "output_text" .text, optional "error" .text, required "created_at" .dateTime,
      optional "started_at" .dateTime, optional "finished_at" .dateTime] [],
    .createIndex "agent_runs" (index "ix_agent_runs_agent_id" ["agent_id"]),
    .createIndex "agent_runs" (index "ix_agent_runs_status" ["status"]),
    .createIndex "agent_runs" ⟨"uq_agent_runs_active_agent",["agent_id"],true,some ("status",["queued","running"])⟩]
  downgrade := [
    .dropIndex "uq_agent_runs_active_agent", .dropIndex "ix_agent_runs_status", .dropIndex "ix_agent_runs_agent_id",
    .dropTable "agent_runs", .dropTable "agents"]

def metadata : List (String × ColumnType) := [
  ("provider_id",.string 100), ("model_id",.string 500), ("finish_reason",.string 100), ("input_tokens",.integer),
  ("output_tokens",.integer), ("total_tokens",.integer), ("latency_ms",.integer)]

/-- Revision 20260811_0002. -/
def modelMetadata : Revision ColumnType where
  upgrade := metadata.map fun (name,type) => .addColumn "agent_runs" (optional name type)
  downgrade := ["latency_ms","total_tokens","output_tokens","input_tokens","finish_reason","model_id","provider_id"].map
    fun name => .dropColumn "agent_runs" name

/-- Revision 20260812_0003. -/
def vision : Revision ColumnType where
  upgrade := [
    .createTable "vision_assets" [
      key "id" (.string 36), required "filename" (.string 255), required "mime_type" (.string 100),
      required "size_bytes" .integer, unique (required "sha256" (.string 64)), required "source_type" (.string 30),
      unique (required "storage_locator" (.string 255)), required "created_at" .dateTime] [],
    .createIndex "vision_assets" (index "ix_vision_assets_sha256" ["sha256"]),
    .createTable "vision_analyses" [
      key "id" (.string 36), references (required "asset_id" (.string 36)) "vision_assets" "id" .cascade,
      required "provider_id" (.string 100), required "model_id" (.string 500), required "mode" (.string 20),
      optional "prompt" .text, required "status" (.string 20), optional "raw_text" .text, optional "description" .text,
      optional "ocr_text" .text, optional "structured_result" .json, optional "latency_ms" .integer,
      optional "error_code" (.string 100), required "created_at" .dateTime, optional "completed_at" .dateTime] [],
    .createIndex "vision_analyses" (index "ix_vision_analyses_asset_id" ["asset_id"]),
    .createTable "vision_folders" [
      key "id" (.string 36), required "display_name" (.string 200), unique (required "root" .text),
      required "enabled" .boolean, required "created_at" .dateTime] []]
  downgrade := [
    .dropTable "vision_folders", .dropIndex "ix_vision_analyses_asset_id", .dropTable "vision_analyses",
    .dropIndex "ix_vision_assets_sha256", .dropTable "vision_assets"]

/-- Revision 20260815_0004. -/
def lexiMemoryTools : Revision ColumnType where
  upgrade := [
    .createTable "memory_records" [
      key "id" (.string 36), required "project_id" (.string 100),
      references (required "agent_id" (.string 36)) "agents" "id" .cascade, required "kind" (.string 20),
      required "content" .text, required "tags" .json, required "created_at" .dateTime, required "updated_at" .dateTime,
      optional "deleted_at" .dateTime] [],
    .createIndex "memory_records" (index "ix_memory_records_project_id" ["project_id"]),
    .createIndex "memory_records" (index "ix_memory_records_agent_id" ["agent_id"]),
    .createTable "run_memory_records" [
      key "id" (.string 36), references (required "run_id" (.string 36)) "agent_runs" "id" .cascade,
      references (optional "memory_id" (.string 36)) "memory_records" "id" .setNull,
      required "memory_id_snapshot" (.string 36), required "rank" .integer, optional "score" .float] [],
    .createIndex "run_memory_records" (index "ix_run_memory_records_run_id" ["run_id"]),
    .createIndex "run_memory_records" (index "ix_run_memory_records_memory_id" ["memory_id"]),
    .createTable "tool_invocations" [
      key "id" (.string 36), references (required "run_id" (.string 36)) "agent_runs" "id" .cascade,
      required "tool_id" (.string 100), required "risk" (.string 20), required "status" (.string 30),
      optional "approval_id" (.string 100), required "input_metadata" .json, optional "output_metadata" .json,
      optional "error_code" (.string 100), required "started_at" .dateTime, optional "finished_at" .dateTime,
      optional "duration_ms" .integer] [],
    .createIndex "tool_invocations" (index "ix_tool_invocations_run_id" ["run_id"])]
  downgrade := [
    .dropIndex "ix_tool_invocations_run_id", .dropTable "tool_invocations", .dropIndex "ix_run_memory_records_memory_id",
    .dropIndex "ix_run_memory_records_run_id", .dropTable "run_memory_records", .dropIndex "ix_memory_records_agent_id",
    .dropIndex "ix_memory_records_project_id", .dropTable "memory_records"]

/-- Revision 20260816_0005. -/
def runDelegations : Revision ColumnType where
  upgrade := [
    .createTable "run_delegations" [
      key "id" (.string 36), references (required "parent_run_id" (.string 36)) "agent_runs" "id" .cascade,
      references (required "child_run_id" (.string 36)) "agent_runs" "id" .cascade, required "node_id" (.string 100),
      required "depth" .integer, required "created_at" .dateTime] [["parent_run_id","node_id"],["child_run_id"]],
    .createIndex "run_delegations" (index "ix_run_delegations_parent_run_id" ["parent_run_id"]),
    .createIndex "run_delegations" (index "ix_run_delegations_child_run_id" ["child_run_id"])]
  downgrade := [
    .dropIndex "ix_run_delegations_child_run_id", .dropIndex "ix_run_delegations_parent_run_id",
    .dropTable "run_delegations"]

/-- Revision 20260817_0006. -/
def nodes : Revision ColumnType where
  upgrade := [
    .createTable "nodes" [
      key "id" (.string 100), required "name" (.string 200), required "role" (.string 20), required "status" (.string 20),
      required "enabled" .boolean, required "enrollment_hash" (.string 64), required "capabilities" .json,
      required "created_at" .dateTime, required "updated_at" .dateTime, optional "last_seen_at" .dateTime] [],
    .createIndex "nodes" (index "ix_nodes_status" ["status"])]
  downgrade := [
    .dropIndex "ix_nodes_status", .dropTable "nodes"]

/-- Revision 20260817_0007. -/
def recovery : Revision ColumnType where
  upgrade := [
    .addColumn "agent_runs" (optional "execution_spec" .json),
    .createTable "run_checkpoints" [
      key "id" (.string 36), references (required "run_id" (.string 36)) "agent_runs" "id" .cascade,
      required "sequence" .integer, required "format_version" .integer, required "reason" (.string 20),
      required "state" .json, required "checksum" (.string 64), required "created_at" .dateTime] [["run_id","sequence"]],
    .createIndex "run_checkpoints" (index "ix_run_checkpoints_run_id" ["run_id"]),
    .createTable "run_action_ledger_entries" [
      key "id" (.string 36), references (required "run_id" (.string 36)) "agent_runs" "id" .cascade,
      references (unique (optional "tool_invocation_id" (.string 36))) "tool_invocations" "id" .setNull,
      required "action_type" (.string 100), required "risk" (.string 20), required "status" (.string 30),
      required "metadata" .json, required "rollback_status" (.string 30), required "created_at" .dateTime,
      optional "started_at" .dateTime, optional "finished_at" .dateTime] [],
    .createIndex "run_action_ledger_entries" (index "ix_run_action_ledger_entries_run_id" ["run_id"]),
    .createTable "run_recovery_decisions" [
      key "id" (.string 36), references (required "run_id" (.string 36)) "agent_runs" "id" .cascade,
      references (optional "checkpoint_id" (.string 36)) "run_checkpoints" "id" .setNull, required "outcome" (.string 40),
      required "details" .json, required "created_at" .dateTime] [],
    .createIndex "run_recovery_decisions" (index "ix_run_recovery_decisions_run_id" ["run_id"])]
  downgrade := [
    .dropIndex "ix_run_recovery_decisions_run_id", .dropTable "run_recovery_decisions",
    .dropIndex "ix_run_action_ledger_entries_run_id", .dropTable "run_action_ledger_entries",
    .dropIndex "ix_run_checkpoints_run_id", .dropTable "run_checkpoints", .dropColumn "agent_runs" "execution_spec"]

/-- Revision 20260818_0008. -/
def securityFoundation : Revision ColumnType where
  upgrade := [
    .createTable "users" [
      key "id" (.string 36), unique (required "username" (.string 200)), required "role" (.string 20),
      optional "disabled_at" .dateTime, required "created_at" .dateTime] [],
    .createTable "security_devices" [
      key "id" (.string 36), references (required "user_id" (.string 36)) "users" "id" .cascade,
      required "display_name" (.string 200), required "trust" (.string 20), optional "revoked_at" .dateTime,
      optional "last_authenticated_at" .dateTime, required "created_at" .dateTime] [],
    .createIndex "security_devices" (index "ix_security_devices_user_id" ["user_id"]),
    .createTable "auth_sessions" [
      key "id" (.string 36), references (required "user_id" (.string 36)) "users" "id" .cascade,
      references (required "device_id" (.string 36)) "security_devices" "id" .cascade,
      unique (required "token_hash" (.string 64)), required "strength" (.string 20), required "expires_at" .dateTime,
      required "last_activity_at" .dateTime, optional "step_up_at" .dateTime, optional "revoked_at" .dateTime,
      required "created_at" .dateTime] [],
    .createIndex "auth_sessions" (index "ix_auth_sessions_user_id" ["user_id"]),
    .createIndex "auth_sessions" (index "ix_auth_sessions_device_id" ["device_id"]),
    .createIndex "auth_sessions" (index "ix_auth_sessions_expires_at" ["expires_at"]),
    .createTable "passkey_credentials" [
      key "id" (.string 36), references (required "user_id" (.string 36)) "users" "id" .cascade,
      references (required "device_id" (.string 36)) "security_devices" "id" .cascade,
      unique (required "credential_id" .binary), required "public_key" .binary, required "sign_count" .integer,
      optional "revoked_at" .dateTime, required "created_at" .dateTime] [],
    .createIndex "passkey_credentials" (index "ix_passkey_credentials_user_id" ["user_id"]),
    .createIndex "passkey_credentials" (index "ix_passkey_credentials_device_id" ["device_id"]),
    .createTable "auth_challenges" [
      key "id" (.string 36), required "kind" (.string 30), unique (required "challenge" .binary),
      references (optional "user_id" (.string 36)) "users" "id" .cascade, optional "device_name" (.string 200),
      required "expires_at" .dateTime, optional "consumed_at" .dateTime, required "created_at" .dateTime] [],
    .createIndex "auth_challenges" (index "ix_auth_challenges_user_id" ["user_id"]),
    .createTable "second_factors" [
      references (key "user_id" (.string 36)) "users" "id" .cascade, required "encrypted_secret" .binary,
      required "key_version" .integer, required "enabled_at" .dateTime, optional "revoked_at" .dateTime] [],
    .createTable "security_approvals" [
      key "id" (.string 36), required "project_id" (.string 100), required "requested_by" (.string 200),
      required "action" (.string 200), optional "target" (.string 500), optional "run_id" (.string 36),
      optional "task_ref" (.string 100), optional "risk" (.string 30), required "reason" .text, required "scope" .json,
      required "status" (.string 20), required "expires_at" .dateTime, optional "decision" (.string 20),
      references (optional "decided_by_user_id" (.string 36)) "users" "id" .setNull, optional "decided_at" .dateTime,
      required "created_at" .dateTime] [],
    .createTable "security_grants" [
      key "id" (.string 36), references (required "issuer_user_id" (.string 36)) "users" "id" .cascade,
      required "subject" (.string 200), required "action" (.string 200), optional "target" (.string 500),
      optional "run_id" (.string 36), optional "task_ref" (.string 100),
      references (optional "device_id" (.string 36)) "security_devices" "id" .setNull,
      references (optional "source_approval_id" (.string 36)) "security_approvals" "id" .setNull,
      required "status" (.string 20), required "expires_at" .dateTime, optional "revoked_at" .dateTime,
      required "created_at" .dateTime] [],
    .createIndex "security_approvals" (index "ix_security_approvals_status_expires_at" ["status","expires_at"]),
    .createIndex "security_grants" (index "ix_security_grants_subject_action_target_run_task_expires_at"
      ["subject","action","target","run_id","task_ref","expires_at"]),
    .createTable "vault_credentials" [
      key "id" (.string 36), unique (required "name" (.string 200)), required "credential_type" (.string 100),
      required "encrypted_value" .binary, required "key_version" .integer, optional "revoked_at" .dateTime,
      references (required "created_by_user_id" (.string 36)) "users" "id" .restrict, required "created_at" .dateTime,
      required "updated_at" .dateTime] [],
    .createTable "security_audit_events" [
      key "id" (.string 36), required "event_type" (.string 100),
      references (optional "actor_user_id" (.string 36)) "users" "id" .setNull,
      references (optional "session_id" (.string 36)) "auth_sessions" "id" .setNull,
      references (optional "device_id" (.string 36)) "security_devices" "id" .setNull, optional "target" (.string 500),
      required "result" (.string 30), required "metadata" .json, required "created_at" .dateTime] [],
    .createIndex "security_audit_events" (index "ix_security_audit_events_event_type" ["event_type"]),
    .createIndex "security_audit_events" (index "ix_security_audit_events_created_at" ["created_at"]),
    .createTable "security_state" [
      key "id" .integer, required "lockdown" (.string 20), required "updated_at" .dateTime] []]
  downgrade := [
    .dropTable "security_state", .dropIndex "ix_security_audit_events_created_at",
    .dropIndex "ix_security_audit_events_event_type", .dropTable "security_audit_events", .dropTable "vault_credentials",
    .dropIndex "ix_security_grants_subject_action_target_run_task_expires_at", .dropTable "security_grants",
    .dropIndex "ix_security_approvals_status_expires_at", .dropTable "security_approvals", .dropTable "second_factors",
    .dropIndex "ix_auth_challenges_user_id", .dropTable "auth_challenges", .dropIndex "ix_passkey_credentials_device_id",
    .dropIndex "ix_passkey_credentials_user_id", .dropTable "passkey_credentials", .dropIndex "ix_auth_sessions_device_id",
    .dropIndex "ix_auth_sessions_user_id", .dropIndex "ix_auth_sessions_expires_at", .dropTable "auth_sessions",
    .dropIndex "ix_security_devices_user_id", .dropTable "security_devices", .dropTable "users"]

def revisions : List (Revision ColumnType) :=
  [backendCore,modelMetadata,vision,lexiMemoryTools,runDelegations,nodes,recovery,securityFoundation]

end AgentGraph.Persistence.Migrations
