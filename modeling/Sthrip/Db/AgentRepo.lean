import Sthrip.Db.Models

set_option autoImplicit false

/-! # Agents

`AgentRepository` of `sthrip/db/agent_repo.py`, as far as the services below look agents up.
-/

namespace Sthrip

open Txn Prog

namespace AgentRepository

def getById (agent_id : Id) : Program (Option Agent) := select (S := schema) (Key.agent agent_id)

def named (agent_name : String) : (k : Key) → Row k → Bool
  | .agent _, agent => agent.agent_name = agent_name
  | _, _ => false

def getByName (agent_name : String) : Program (Option (Id × Agent)) := do
  let rows ← query (named agent_name)
  return (rows.filterMap fun
    | ⟨Key.agent id, agent⟩ => some (id, agent)
    | _ => none).head?

end AgentRepository

end Sthrip
