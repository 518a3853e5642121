import HeapAgent.System

/-! The library around the exported functions. `Agent_OnLoad` and
`Agent_OnAttach` run `agent_start`, which stores the JVMTI environment that
`GetEnv` hands out in `g_jvmti` and then asks for `can_tag_objects`. Every
exported function but `nativeAdvanceEpoch` returns `NULL` while `g_jvmti` is
`NULL`, before it touches anything. A session of the library interleaves
starts, calls and collections. Forgetting the starts and the refused calls
leaves a run of the calls, so what holds along every run holds along every
session. -/

namespace HeapAgent

/-- The JVMTI environment `g_jvmti` points to, with whether `can_tag_objects`
was added to it. -/
structure Env where
  canTagObjects : Bool
  deriving Repr, DecidableEq

/-- The library's global `g_jvmti`. -/
structure Agent where
  jvmti : Option Env
  deriving Repr, DecidableEq

/-- The library as loaded: `g_jvmti = NULL`. -/
def Agent.unloaded : Agent := ⟨none⟩

/-- `JNI_OK` or `JNI_ERR`. -/
inductive Status
  | ok
  | err
  deriving Repr, DecidableEq

/-- The runtime's answers during `agent_start`: whether `GetEnv` returned
`JNI_OK`, whether it left an environment in `g_jvmti`, and whether
`AddCapabilities` succeeded. -/
structure StartAnswers where
  envOk : Bool
  envSet : Bool
  capabilities : Bool
  deriving Repr, DecidableEq

/-- `agent_start(vm)`, `vm` telling whether the `JavaVM*` is non-`NULL`. -/
def agentStart (vm : Bool) (answers : StartAnswers) : StateM Agent Status := do
  if !vm then return .err
  set (⟨if answers.envSet then some ⟨false⟩ else none⟩ : Agent)
  if !answers.envOk || (← get).jvmti.isNone then return .err
  if !answers.capabilities then return .err
  modify fun agent => ⟨agent.jvmti.map fun env => { env with canTagObjects := true }⟩
  return .ok

/-- `Agent_OnLoad(vm, options, reserved)`. -/
def agentOnLoad (vm : Bool) (answers : StartAnswers) : StateM Agent Status := agentStart vm answers

/-- `Agent_OnAttach(vm, options, reserved)`. -/
def agentOnAttach (vm : Bool) (answers : StartAnswers) : StateM Agent Status := agentStart vm answers

/-- Whether the function returns `NULL` at once while `g_jvmti` is `NULL`: all
but `nativeAdvanceEpoch`. -/
def Call.testsJvmti : Call → Bool
  | .advanceEpoch => false
  | _ => true

/-- An exported call as the library runs it, with `g_jvmti` as `agent` holds it. -/
def Call.guarded (agent : Agent) (jvm : Jvm) (w : World) (call : Call) : Native :=
  if call.testsJvmti && agent.jvmti.isNone then .start w else call.run jvm w

/-- The sessions of the library from the shared state `init`: loads and
attaches of the agent, exported calls and collections, in any order. -/
inductive Session (jvm : Jvm) (init : World) : Agent → World → List Event → Prop
  | start : Session jvm init .unloaded init []
  | load {agent : Agent} {w : World} {log : List Event} (vm : Bool) (answers : StartAnswers) :
      Session jvm init agent w log → Session jvm init ((agentOnLoad vm answers).run agent).2 w log
  | attach {agent : Agent} {w : World} {log : List Event} (vm : Bool) (answers : StartAnswers) :
      Session jvm init agent w log → Session jvm init ((agentOnAttach vm answers).run agent).2 w log
  | call {agent : Agent} {w : World} {log : List Event} (call : Call) :
      Session jvm init agent w log →
        Session jvm init agent (call.guarded agent jvm w).world (log ++ (call.guarded agent jvm w).log)
  | collect {agent : Agent} {w w' : World} {log : List Event} :
      Session jvm init agent w log → Collects w w' → Session jvm init agent w' log

/-- Every session is a run of the calls that passed the test on `g_jvmti`:
starts and refused calls leave the shared state and the log alone. -/
theorem Session.run {jvm : Jvm} {init : World} {agent : Agent} {w : World} {log : List Event}
    (session : Session jvm init agent w log) : Run jvm init w log := by
  induction session with
  | start => exact .start
  | load _ _ _ ih => exact ih
  | attach _ _ _ ih => exact ih
  | @call agent w log call _ ih =>
    unfold Call.guarded
    split
    · simpa only [Native.start, List.append_nil] using ih
    · exact .call call ih
  | collect _ collects ih => exact .collect ih collects

end HeapAgent
