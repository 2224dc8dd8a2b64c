/-
The context of an agent: `_build_messages` of `engine/agents/base.py`.

An agent is given its system prompt, the messages of the run so far, and the results of
the other agents.  The system prompt is a column that nothing else reads, and `str` is
the text of a value in an f-string: both are parameters.
-/
import GraphPilot.Session

namespace GraphPilot

open Python

variable (str : Json → String) (systemPrompt : AgentConfig → String)

/-- `f"[{agent_name}]: {result}"`. -/
def resultLine (x : String × Json) : String := s!"[{x.1}]: {str x.2}"

/-- `context_parts`. -/
def contextParts (config : AgentConfig) (results : List (String × Json)) : List String :=
  (results.filter fun x => x.1 ≠ config.name).map (resultLine str)

/-- The message that lists the results. -/
def contextMessage (parts : List String) : Message :=
  ⟨"user", .value (.str ("Previous agent results:\n" ++ "\n".intercalate parts))⟩

/-- `_build_messages`. -/
def buildMessages (config : AgentConfig) (state : AgentState) : List Message :=
  let parts := contextParts str config state.results
  ⟨"system", .value (.str (systemPrompt config))⟩ :: state.messages ++
    if parts.isEmpty then [] else [contextMessage parts]

variable {str systemPrompt} {config : AgentConfig} {state : AgentState}

/-- The history of the run is in the context. -/
theorem mem_buildMessages_of_message {m : Message} (h : m ∈ state.messages) :
    m ∈ buildMessages str systemPrompt config state :=
  List.mem_append_left _ (List.mem_cons_of_mem _ h)

/-- The result of another agent is in the context. -/
theorem mem_buildMessages_of_result {x : String × Json} (h : x ∈ state.results)
    (hne : x.1 ≠ config.name) : ∃ parts, resultLine str x ∈ parts ∧
      contextMessage parts ∈ buildMessages str systemPrompt config state := by
  have hline : resultLine str x ∈ contextParts str config state.results :=
    List.mem_map_of_mem (List.mem_filter.mpr ⟨h, decide_eq_true hne⟩)
  refine ⟨contextParts str config state.results, hline, ?_⟩
  unfold buildMessages
  dsimp only
  rw [if_neg (by simpa using List.ne_nil_of_mem hline)]
  exact List.mem_append_right _ List.mem_cons_self

end GraphPilot
