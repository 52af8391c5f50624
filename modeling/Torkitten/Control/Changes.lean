import Mathlib.Data.List.Sort
import Torkitten.Model.Json

/-!
# Changes of the routed state

The functions by which `Initialize` and the four mapping operations of `internal/control` change
a candidate state. Each either refuses with the source's error or returns the candidate; the
rest of the operation (validation, rendering, loading, persisting) is common to all of them.
-/

namespace Torkitten

/-- A change of a candidate state. -/
abbrev Mutation := State → Except GoError State

/-- The mutation of `Manager.Initialize`. -/
def initializeMutation (session : LocalSession) : Mutation := fun candidate =>
  if candidate.initialized then .error (.new "setup is already complete")
  else .ok { candidate with initialized := true, sessions := candidate.sessions ++ [session] }

/-- `sort.Slice` of mappings by prefix. -/
def sortMappings (mappings : List Mapping) : List Mapping :=
  mappings.insertionSort fun a b => ¬ b.prefixLabel < a.prefixLabel

/-- The mutation of `Manager.CreateMapping`. -/
def createMappingMutation (mapping : Mapping) : Mutation := fun candidate =>
  if candidate.mappings.any (·.prefixLabel == mapping.prefixLabel) then
    .error (.new "mapping already exists")
  else .ok { candidate with mappings := sortMappings (candidate.mappings ++ [mapping]) }

/-- The loop of `Manager.UpdateMapping`: replace the mapping with the old prefix, unless another
one already has the new prefix. It returns the new list and whether the old prefix was found. -/
def replaceMapping (oldPrefix : String) (mapping : Mapping) :
    List Mapping → Except GoError (List Mapping × Bool)
  | [] => .ok ([], false)
  | m :: rest =>
    if m.prefixLabel = oldPrefix then do
      let (rest, _) ← replaceMapping oldPrefix mapping rest
      return (mapping :: rest, true)
    else if m.prefixLabel = mapping.prefixLabel then .error (.new "mapping already exists")
    else do
      let (rest, found) ← replaceMapping oldPrefix mapping rest
      return (m :: rest, found)

/-- The mutation of `Manager.UpdateMapping`. -/
def updateMappingMutation (oldPrefix : String) (mapping : Mapping) : Mutation := fun candidate => do
  let (mappings, found) ← replaceMapping oldPrefix mapping candidate.mappings
  if !found then .error (.new "mapping not found")
  else return { candidate with mappings := sortMappings mappings }

/-- The loop of `Manager.EnableMapping`: set the flag of the first mapping with the prefix. -/
def enableFirst (label : String) (enabled : Bool) : List Mapping → Option (List Mapping)
  | [] => none
  | m :: rest =>
    if m.prefixLabel = label then some ({ m with enabled } :: rest)
    else (enableFirst label enabled rest).map (m :: ·)

/-- The mutation of `Manager.EnableMapping`. -/
def enableMappingMutation (label : String) (enabled : Bool) : Mutation := fun candidate =>
  match enableFirst label enabled candidate.mappings with
  | none => .error (.new "mapping not found")
  | some mappings => .ok { candidate with mappings }

/-- The mutation of `Manager.DeleteMapping`. -/
def deleteMappingMutation (label : String) : Mutation := fun candidate =>
  let kept := candidate.mappings.filter fun m => m.prefixLabel != label
  if kept.length = candidate.mappings.length then .error (.new "mapping not found")
  else .ok { candidate with mappings := kept }

/-- The checks of `ComponentChange` before anything is rendered: the candidate it goes on with. -/
def componentCandidate (mutate : Mutation) (current : State) : Except GoError State :=
  if !current.initialized && !current.sessions.isEmpty then
    .error (.new "invalid setup transition")
  else do
    let candidate ← mutate (clone current)
    if !candidate.initialized then .error (.new "setup is incomplete")
    else
      match candidate.validate with
      | some err => .error err
      | none => return candidate

end Torkitten
