import AgentGraph.Domain.Json
import AgentGraph.Foundation.StateGraph
import AgentGraph.Memory.Usage
import AgentGraph.Models.Contracts
import AgentGraph.Tools.Service

/-! # The Lexi workflow

The graph loads memory once, then alternates between the model, which decides, and the
tool that the decision asks for. A decision that is not valid JSON of one of the two
kinds becomes a fixed reply, and so does a tool request behind the last permitted one.
-/
set_option autoImplicit false
namespace AgentGraph.Lexi
open AgentGraph.Memory (MemoryMatch)
open AgentGraph.Models (ModelMessage)
open AgentGraph.Tools (ToolResult ToolStatus)
open StateGraph

inductive LexiDecision
  | respond (message : String)
  | tool (toolId : String) (arguments : JsonObject) (reason : String)

/-- A string field with `min_length=1` and a maximum. -/
def stringField (fields : JsonObject) (key : String) (maxLength : ℕ) : Option String :=
  (JsonObject.get fields key).str?.filter fun text => 1 ≤ text.length && text.length ≤ maxLength

def respondDecision (fields : JsonObject) : Option LexiDecision :=
  if fields.onlyKeys ["kind","message"] then (stringField fields "message" 20000).map .respond else none

def toolDecision (fields : JsonObject) : Option LexiDecision :=
  if fields.onlyKeys ["kind","tool_id","arguments","reason"] then
    match stringField fields "tool_id" 100, (JsonObject.get fields "arguments").dict?, stringField fields "reason" 1000 with
    | some toolId, some arguments, some reason => some (.tool toolId arguments reason)
    | _, _, _ => none
  else none

/-- The two models, told apart by `kind`. -/
def validateDecision : Json → Option LexiDecision
  | .obj fields =>
    match (JsonObject.get fields "kind").str? with
    | some "respond" => respondDecision fields
    | some "tool" => toolDecision fields
    | _ => none
  | _ => none

structure Settings where
  maxToolSteps : ℕ
  maxToolSteps_pos : 0 < maxToolSteps
  maxToolSteps_le : maxToolSteps ≤ 10

structure AgentExecutionRequest where
  inputText : String
  modelRef : String

structure LexiState where
  execution : AgentExecutionRequest
  memories : List MemoryMatch
  memoryContext : String
  response : Option Models.ModelResponse
  decision : Option LexiDecision
  toolResult : Option ToolResult
  toolSteps : ℕ

/-- The calls of the model and of the tools, with what came back. -/
inductive Call
  | complete (modelRef : String) (messages : List ModelMessage) (response : Models.ModelResponse)
  | execute (toolId : String) (arguments : JsonObject) (result : ToolResult)

/-- What answers a workflow: the search of memory, and the model and the tools by
the calls so far. -/
structure Environment where
  validateJson : String → Option Json
  memories : List MemoryMatch
  respond : List Call → String → List ModelMessage → Models.ModelResponse
  runTool : List Call → String → JsonObject → ToolResult

/-- The state of a workflow and the calls it has made. -/
structure Session where
  state : LexiState
  calls : List Call

inductive Node
  | loadMemory | generateOrDecide | executeTool
deriving DecidableEq

inductive RuntimeError
  | noResponse
  | noToolDecision
deriving DecidableEq

def invalidDecisionMessage : String :=
  "I could not process a valid structured assistant decision, so no action was taken."

def stepLimitMessage : String := "I reached the configured tool step limit without completing that action."

def systemPrompt : String :=
  "You are Lexi, a local-first AgentGraph assistant. Reply only with strict JSON. " ++
    "Use either \x7b\"kind\":\"respond\",\"message\":\"...\"\x7d or " ++
    "\x7b\"kind\":\"tool\",\"tool_id\":\"...\",\"arguments\":\x7b\x7d,\"reason\":\"...\"\x7d. " ++
    "Available tool requests are system.current_time with \x7b\x7d and " ++
    "desktop.open_application with \x7b\"application_id\":\"configured-alias\"\x7d. " ++
    "Tools are requests only; policy and approval are enforced outside this prompt. " ++
    "Do not provide shell commands, executable paths, flags, or security overrides."

def statusValue : ToolStatus → String
  | .pendingApproval => "pending_approval"
  | .succeeded => "succeeded"
  | .rejected => "rejected"
  | .expired => "expired"
  | .cancelled => "cancelled"
  | .failed => "failed"

/-- `_tool_result_context`; an empty text counts as none. -/
def toolResultContext (result : ToolResult) : String :=
  let value := ((result.output.filter (· ≠ "")).orElse fun _ => result.errorCode.filter (· ≠ "")).getD (statusValue result.status)
  "<agentgraph_tool_result tool_id=\"" ++ result.toolId ++ "\" status=\"" ++ statusValue result.status ++ "\">" ++ value ++
    "</agentgraph_tool_result>"

variable (env : Environment) (settings : Settings)

/-- `_parse_decision`. -/
def parseDecision (content : String) : LexiDecision :=
  ((env.validateJson content).bind validateDecision).getD (.respond invalidDecisionMessage)

def loadMemory (s : Session) : Session :=
  { s with state := { s.state with memories := env.memories, memoryContext := Memory.memoryContext env.memories } }

def promptOf (state : LexiState) : List ModelMessage :=
  [⟨"system",systemPrompt,[]⟩,⟨"system",state.memoryContext,[]⟩,⟨"user",state.execution.inputText,[]⟩] ++
    (state.toolResult.map fun result => ⟨"system",toolResultContext result,[]⟩).toList

/-- What becomes of the decision of the model after `toolSteps` tools. -/
def limitDecision (toolSteps : ℕ) : LexiDecision → LexiDecision
  | .respond message => .respond message
  | .tool toolId arguments reason =>
    if settings.maxToolSteps ≤ toolSteps then .respond stepLimitMessage else .tool toolId arguments reason

/-- The response that is kept: a reply replaces the text of the model. -/
def LexiDecision.apply (decision : LexiDecision) (response : Models.ModelResponse) : Models.ModelResponse :=
  match decision with
  | .respond message => { response with content := message }
  | .tool _ _ _ => response

def generateOrDecide (s : Session) : Session :=
  let messages := promptOf s.state
  let response := env.respond s.calls s.state.execution.modelRef messages
  let decision := limitDecision settings s.state.toolSteps (parseDecision env response.content)
  { state := { s.state with response := some (decision.apply response), decision := some decision },
    calls := s.calls ++ [.complete s.state.execution.modelRef messages response] }

def executeTool (s : Session) : Except RuntimeError Session :=
  match s.state.decision with
  | some (.tool toolId arguments _) =>
    let result := env.runTool s.calls toolId arguments
    .ok
      { state := { s.state with toolResult := some result, toolSteps := s.state.toolSteps + 1 },
        calls := s.calls ++ [.execute toolId arguments result] }
  | _ => .error .noToolDecision

/-- `_next_step`. -/
def nextStep (state : LexiState) : Option Node :=
  match state.decision with
  | some (.tool _ _ _) => some .executeTool
  | _ => none

/-- The nodes and edges that `__init__` declares. -/
def graph : Graph Node Session RuntimeError where
  entry := .loadMemory
  body
    | .loadMemory, s => .ok (loadMemory env s)
    | .generateOrDecide, s => .ok (generateOrDecide env settings s)
    | .executeTool, s => executeTool env s
  edge
    | .loadMemory, _ => some .generateOrDecide
    | .generateOrDecide, s => nextStep s.state
    | .executeTool, _ => some .generateOrDecide

/-- The default recursion limit of the engine. -/
def recursionLimit : ℕ := 25

def start (execution : AgentExecutionRequest) : Session := ⟨⟨execution,[],"",none,none,none,0⟩,[]⟩

inductive InvokeError
  | runtime (e : RuntimeError)
  | recursionLimit

/-- The response of `invoke`, with the calls that were made. -/
def invoke (execution : AgentExecutionRequest) : Except InvokeError (Models.ModelResponse × List Call) :=
  match (graph env settings).invoke Lexi.recursionLimit (start execution) with
  | .recursionLimit => .error .recursionLimit
  | .raised e => .error (.runtime e)
  | .ended s =>
    match s.state.response with
    | none => .error (.runtime .noResponse)
    | some response => .ok (response,s.calls)

/-! ## What a session has done -/

def Call.isTool : Call → Bool
  | .execute _ _ _ => true
  | .complete _ _ _ => false

def toolCalls (calls : List Call) : ℕ := calls.countP Call.isTool

def modelCalls (calls : List Call) : ℕ := calls.countP fun call => !call.isTool

@[simp] theorem toolCalls_nil : toolCalls [] = 0 := rfl

@[simp] theorem modelCalls_nil : modelCalls [] = 0 := rfl

@[simp] theorem toolCalls_complete (calls : List Call) (modelRef : String) (messages : List ModelMessage)
    (response : Models.ModelResponse) : toolCalls (calls ++ [.complete modelRef messages response]) = toolCalls calls := by
  simp [toolCalls,Call.isTool]

@[simp] theorem toolCalls_execute (calls : List Call) (toolId : String) (arguments : JsonObject) (result : ToolResult) :
    toolCalls (calls ++ [.execute toolId arguments result]) = toolCalls calls + 1 := by
  simp [toolCalls,Call.isTool]

@[simp] theorem modelCalls_complete (calls : List Call) (modelRef : String) (messages : List ModelMessage)
    (response : Models.ModelResponse) : modelCalls (calls ++ [.complete modelRef messages response]) = modelCalls calls + 1 := by
  simp [modelCalls,Call.isTool]

@[simp] theorem modelCalls_execute (calls : List Call) (toolId : String) (arguments : JsonObject) (result : ToolResult) :
    modelCalls (calls ++ [.execute toolId arguments result]) = modelCalls calls := by
  simp [modelCalls,Call.isTool]

/-- Each tool call has the tool and the arguments of the model response just before it. -/
def Follows (calls : List Call) : Prop :=
  ∀ before toolId arguments result after, calls = before ++ .execute toolId arguments result :: after →
    ∃ first modelRef messages response reason, before = first ++ [.complete modelRef messages response] ∧
      (env.validateJson response.content).bind validateDecision = some (.tool toolId arguments reason)

/-- The text of the last response of the model, and what is said in its place: the message of
its own reply, or a fixed one when it is invalid or asks for one tool too many. -/
def Answers (calls : List Call) (answer : Models.ModelResponse) : Prop :=
  ∃ first modelRef messages response content,
    calls = first ++ [.complete modelRef messages response] ∧ answer = { response with content := content } ∧
      ((env.validateJson response.content).bind validateDecision = some (.respond content) ∨
        (env.validateJson response.content).bind validateDecision = none ∧ content = invalidDecisionMessage ∨
        (∃ toolId arguments reason,
          (env.validateJson response.content).bind validateDecision = some (.tool toolId arguments reason)) ∧
            toolCalls calls = settings.maxToolSteps ∧ content = stepLimitMessage)

/-- What holds when a node is due. -/
def Due : Node → Session → Prop
  | .loadMemory, s => s.calls = [] ∧ s.state.toolSteps = 0
  | .generateOrDecide, s =>
    Follows env s.calls ∧ toolCalls s.calls = s.state.toolSteps ∧ modelCalls s.calls = s.state.toolSteps ∧
      s.state.toolSteps ≤ settings.maxToolSteps
  | .executeTool, s =>
    Follows env s.calls ∧ toolCalls s.calls = s.state.toolSteps ∧ modelCalls s.calls = s.state.toolSteps + 1 ∧
      s.state.toolSteps < settings.maxToolSteps ∧
      ∃ first modelRef messages response toolId arguments reason,
        s.calls = first ++ [.complete modelRef messages response] ∧
          s.state.decision = some (.tool toolId arguments reason) ∧
          (env.validateJson response.content).bind validateDecision = some (.tool toolId arguments reason)

/-- What holds at the end. -/
def Finished (s : Session) : Prop :=
  Follows env s.calls ∧ toolCalls s.calls ≤ settings.maxToolSteps ∧ modelCalls s.calls ≤ settings.maxToolSteps + 1 ∧
    ∃ answer, s.state.response = some answer ∧ Answers env settings s.calls answer

/-- The supersteps that can still follow. -/
def stepsLeft : Node → Session → ℕ
  | .loadMemory, _ => 2 * settings.maxToolSteps + 1
  | .generateOrDecide, s => 2 * (settings.maxToolSteps - s.state.toolSteps)
  | .executeTool, s => 2 * (settings.maxToolSteps - s.state.toolSteps) - 1

variable {env settings}

theorem Follows.complete {calls : List Call} (h : Follows env calls) (modelRef : String) (messages : List ModelMessage)
    (response : Models.ModelResponse) : Follows env (calls ++ [.complete modelRef messages response]) := by
  intro before toolId arguments result after heq
  obtain rfl | ⟨after,last,rfl⟩ := List.eq_nil_or_concat after
  · obtain ⟨-,hlast⟩ := List.append_inj' heq rfl
    cases hlast
  · have hsplit : calls ++ [.complete modelRef messages response] = (before ++ .execute toolId arguments result :: after) ++ [last] := by
      simpa using heq
    exact h before toolId arguments result after (List.append_inj' hsplit rfl).1

theorem Follows.execute {first : List Call} {modelRef : String} {messages : List ModelMessage} {response : Models.ModelResponse}
    (h : Follows env (first ++ [.complete modelRef messages response])) {toolId : String} {arguments : JsonObject}
    {reason : String}
    (hdecision : (env.validateJson response.content).bind validateDecision = some (.tool toolId arguments reason))
    (result : ToolResult) :
    Follows env (first ++ [.complete modelRef messages response] ++ [.execute toolId arguments result]) := by
  intro before toolId' arguments' result' after heq
  obtain rfl | ⟨after,last,rfl⟩ := List.eq_nil_or_concat after
  · obtain ⟨hbefore,hlast⟩ := List.append_inj' heq rfl
    cases hlast
    exact ⟨first,modelRef,messages,response,reason,hbefore.symm,hdecision⟩
  · have hsplit : first ++ [.complete modelRef messages response] ++ [.execute toolId arguments result] =
        (before ++ .execute toolId' arguments' result' :: after) ++ [last] := by
      simpa using heq
    exact h before toolId' arguments' result' after (List.append_inj' hsplit rfl).1

theorem loadMemory_advances {s : Session} (h : Due env settings .loadMemory s) :
    (graph env settings).Advances (Due env settings) (Finished env settings) (stepsLeft settings) .loadMemory s := by
  obtain ⟨hcalls,hsteps⟩ := h
  refine ⟨loadMemory env s,rfl,.inr ⟨.generateOrDecide,rfl,?_,?_⟩⟩
  · have hempty : (loadMemory env s).calls = [] := hcalls
    have hzero : (loadMemory env s).state.toolSteps = 0 := hsteps
    refine ⟨?_,?_,?_,?_⟩
    · rw [hempty]
      intro before toolId arguments result after heq
      simp at heq
    · rw [hempty,hzero,toolCalls_nil]
    · rw [hempty,hzero,modelCalls_nil]
    · rw [hzero]
      exact Nat.zero_le _
  · change 2 * (settings.maxToolSteps - s.state.toolSteps) < 2 * settings.maxToolSteps + 1
    omega

theorem executeTool_advances {s : Session} (h : Due env settings .executeTool s) :
    (graph env settings).Advances (Due env settings) (Finished env settings) (stepsLeft settings) .executeTool s := by
  obtain ⟨hfollows,htools,hmodels,hlt,first,modelRef,messages,response,toolId,arguments,reason,hcalls,hdecision,hvalid⟩ := h
  have hbody : (graph env settings).body .executeTool s =
      .ok ⟨{ s.state with toolResult := some (env.runTool s.calls toolId arguments), toolSteps := s.state.toolSteps + 1 },
        s.calls ++ [.execute toolId arguments (env.runTool s.calls toolId arguments)]⟩ := by
    change executeTool env s = _
    rw [executeTool,hdecision]
  refine ⟨_,hbody,.inr ⟨.generateOrDecide,rfl,⟨?_,?_,?_,hlt⟩,?_⟩⟩
  · rw [hcalls] at hfollows ⊢
    exact hfollows.execute hvalid _
  · rw [toolCalls_execute,htools]
  · rw [modelCalls_execute,hmodels]
  · change 2 * (settings.maxToolSteps - (s.state.toolSteps + 1)) < 2 * (settings.maxToolSteps - s.state.toolSteps) - 1
    omega

/-- A reply ends the run. -/
theorem reply_advances {s : Session} (h : Due env settings .generateOrDecide s) {response : Models.ModelResponse}
    (hresponse : env.respond s.calls s.state.execution.modelRef (promptOf s.state) = response) (content : String)
    (hdecision : limitDecision settings s.state.toolSteps (parseDecision env response.content) = .respond content)
    (hanswers : Answers env settings (s.calls ++ [.complete s.state.execution.modelRef (promptOf s.state) response])
      { response with content := content }) :
    (graph env settings).Advances (Due env settings) (Finished env settings) (stepsLeft settings) .generateOrDecide s := by
  obtain ⟨hfollows,htools,hmodels,hle⟩ := h
  have hbody : (graph env settings).body .generateOrDecide s =
      .ok ⟨{ s.state with response := some { response with content := content }, decision := some (.respond content) },
        s.calls ++ [.complete s.state.execution.modelRef (promptOf s.state) response]⟩ := by
    change Except.ok (generateOrDecide env settings s) = _
    simp only [generateOrDecide, hresponse, hdecision, LexiDecision.apply]
  refine ⟨_,hbody,.inl ⟨rfl,hfollows.complete _ _ _,?_,?_,_,rfl,hanswers⟩⟩
  · rw [toolCalls_complete,htools]
    exact hle
  · rw [modelCalls_complete,hmodels]
    omega

/-- A tool request before the limit makes the tool due. -/
theorem request_advances {s : Session} (h : Due env settings .generateOrDecide s) {response : Models.ModelResponse}
    (hresponse : env.respond s.calls s.state.execution.modelRef (promptOf s.state) = response)
    {toolId : String} {arguments : JsonObject} {reason : String}
    (hvalid : (env.validateJson response.content).bind validateDecision = some (.tool toolId arguments reason))
    (hlt : s.state.toolSteps < settings.maxToolSteps) :
    (graph env settings).Advances (Due env settings) (Finished env settings) (stepsLeft settings) .generateOrDecide s := by
  obtain ⟨hfollows,htools,hmodels,hle⟩ := h
  have hdecision : limitDecision settings s.state.toolSteps (parseDecision env response.content) =
      .tool toolId arguments reason := by
    rw [parseDecision,hvalid,Option.getD_some,limitDecision,if_neg (Nat.not_le_of_lt hlt)]
  have hbody : (graph env settings).body .generateOrDecide s =
      .ok ⟨{ s.state with response := some response, decision := some (.tool toolId arguments reason) },
        s.calls ++ [.complete s.state.execution.modelRef (promptOf s.state) response]⟩ := by
    change Except.ok (generateOrDecide env settings s) = _
    simp only [generateOrDecide, hresponse, hdecision, LexiDecision.apply]
  refine ⟨_,hbody,.inr ⟨.executeTool,rfl,?_,?_⟩⟩
  · refine ⟨hfollows.complete _ _ _,?_,?_,hlt,_,_,_,response,toolId,arguments,reason,rfl,rfl,hvalid⟩
    · rw [toolCalls_complete,htools]
    · rw [modelCalls_complete,hmodels]
  · change 2 * (settings.maxToolSteps - s.state.toolSteps) - 1 < 2 * (settings.maxToolSteps - s.state.toolSteps)
    omega

theorem generateOrDecide_advances {s : Session} (h : Due env settings .generateOrDecide s) :
    (graph env settings).Advances (Due env settings) (Finished env settings) (stepsLeft settings) .generateOrDecide s := by
  obtain ⟨response,hresponse⟩ : ∃ response, env.respond s.calls s.state.execution.modelRef (promptOf s.state) = response :=
    ⟨_,rfl⟩
  cases hvalid : (env.validateJson response.content).bind validateDecision with
  | none =>
    refine reply_advances h hresponse invalidDecisionMessage ?_ ⟨_,_,_,response,_,rfl,rfl,.inr (.inl ⟨hvalid,rfl⟩)⟩
    rw [parseDecision,hvalid]
    rfl
  | some decision =>
    cases decision with
    | respond message =>
      refine reply_advances h hresponse message ?_ ⟨_,_,_,response,_,rfl,rfl,.inl hvalid⟩
      rw [parseDecision,hvalid]
      rfl
    | tool toolId arguments reason =>
      by_cases hlimit : settings.maxToolSteps ≤ s.state.toolSteps
      · have htools := h.2.1
        have hle := h.2.2.2
        refine reply_advances h hresponse stepLimitMessage ?_
          ⟨_,_,_,response,_,rfl,rfl,.inr (.inr ⟨⟨toolId,arguments,reason,hvalid⟩,?_,rfl⟩)⟩
        · rw [parseDecision,hvalid,Option.getD_some,limitDecision,if_pos hlimit]
        · rw [toolCalls_complete,htools]
          exact Nat.le_antisymm hle hlimit
      · exact request_advances h hresponse hvalid (Nat.lt_of_not_le hlimit)

theorem due_advances (env : Environment) (settings : Settings) (n : Node) (s : Session) (h : Due env settings n s) :
    (graph env settings).Advances (Due env settings) (Finished env settings) (stepsLeft settings) n s := by
  cases n with
  | loadMemory => exact loadMemory_advances h
  | generateOrDecide => exact generateOrDecide_advances h
  | executeTool => exact executeTool_advances h

/-- Whatever the model and the tools answer, an undisturbed workflow stays inside its bounds
and the engine's, and answers with a reply. -/
theorem invoke_bounded (env : Environment) (settings : Settings) (execution : AgentExecutionRequest) :
    ∃ answer calls, invoke env settings execution = .ok (answer,calls) ∧ toolCalls calls ≤ settings.maxToolSteps ∧
      modelCalls calls ≤ settings.maxToolSteps + 1 ∧ Follows env calls ∧ Answers env settings calls answer := by
  have hrank : stepsLeft settings .loadMemory (start execution) < Lexi.recursionLimit := by
    have hle := settings.maxToolSteps_le
    change 2 * settings.maxToolSteps + 1 < 25
    omega
  obtain ⟨s,hrun,hfollows,htools,hmodels,answer,hanswer,hanswers⟩ :=
    Graph.runFrom_ends (due_advances env settings) (n := Node.loadMemory) ⟨rfl,rfl⟩ hrank
  refine ⟨answer,s.calls,?_,htools,hmodels,hfollows,hanswers⟩
  have hinvoke : (graph env settings).invoke Lexi.recursionLimit (start execution) = .ended s := hrun
  simp only [invoke, hinvoke, hanswer]

end AgentGraph.Lexi
