import AgentGraph.Domain.Entities

/-! # Delimited, size-bounded text handed to workers and to the synthesis

Lengths are counted in code points, as Python does. The remaining budget never
goes below zero because the loop stops there.
-/
set_option autoImplicit false
namespace AgentGraph

/-- `text[:n]`. -/
def takeChars (n : Nat) (text : String) : String := String.ofList (text.toList.take n)

def resultHeader (nodeId : String) : String := "\n<result node=\"" ++ nodeId ++ "\">\n"
def resultFooter : String := "\n</result>"

/-- The part of an output that fits into `available` characters. -/
def fitOutput (available : Nat) (output : String) : String :=
  if available < output.length && 16 ≤ available then
    takeChars (available - 15) output ++ "[truncated]"
  else takeChars available output

/-- The loop over the results, with the characters that remain. -/
def resultSections : Nat → List (String × String) → List String
  | _, [] => []
  | remaining, (nodeId,output) :: rest =>
    let available := remaining - (resultHeader nodeId).length - resultFooter.length
    let block := resultHeader nodeId ++ fitOutput available output ++ resultFooter
    block :: if remaining ≤ block.length then [] else resultSections (remaining - block.length) rest

def upstreamOpen : String := "\n<agentgraph_upstream_results>"
def upstreamClose : String := "\n</agentgraph_upstream_results>"

/-- `_bounded_context`. -/
def boundedContext (base : String) (results : List (String × String)) (maximum : Nat) : String :=
  let opening := base ++ upstreamOpen
  opening ++ String.join (resultSections (maximum - opening.length - upstreamClose.length) results) ++
    upstreamClose

/-- `_worker_input`. -/
def workerInput (request : String) (instructions : Option String) (results : List (String × String))
    (maximum : Nat) : String :=
  let base := "<agentgraph_request>\n" ++ request ++ "\n</agentgraph_request>"
  match instructions with
  | some text =>
    if text = "" then boundedContext base results maximum
    else boundedContext (base ++ "\n<agentgraph_node_instructions>\n" ++ text ++
      "\n</agentgraph_node_instructions>") results maximum
  | none => boundedContext base results maximum

end AgentGraph
