import Switchboard.Command.Graph

/-!
Turning declarations into commands. A declaration is a table with the keys listed below, or a
finished command; sub-commands are built before the command that holds them.
-/
namespace Switchboard.Graph

/-- The keys of a declaration by what they set; of two keys for one thing the later one counts. -/
def helpKeys : List String := ["help"]

@[inherit_doc helpKeys]
def aliasKeys : List String := ["alias", "aliases"]

@[inherit_doc helpKeys]
def permissionKeys : List String := ["perm", "permission"]

@[inherit_doc helpKeys]
def parameterKeys : List String := ["args"]

@[inherit_doc helpKeys]
def handlerKeys : List String := ["fn", "handler"]

@[inherit_doc helpKeys]
def childKeys : List String := ["subs", "children"]

def specKeys : List String :=
  helpKeys ++ aliasKeys ++ permissionKeys ++ parameterKeys ++ handlerKeys ++ childKeys

def lastField? (fields : List (String × Spec)) (keys : List String) : Option Spec :=
  match fields with
  | [] => none
  | (key, value) :: rest =>
    match lastField? rest keys with
    | some later => some later
    | none => if key ∈ keys then some value else none

theorem sizeOf_lastField? {fields : List (String × Spec)} {keys : List String} {value : Spec}
    (found : lastField? fields keys = some value) : sizeOf value < sizeOf fields := by
  induction fields with
  | nil => cases found
  | cons field rest ih =>
    obtain ⟨key, here⟩ := field
    unfold lastField? at found
    split at found
    · rename_i later inRest
      have := ih (found ▸ inRest)
      simp only [List.cons.sizeOf_spec]
      omega
    · split at found
      · cases found
        simp only [List.cons.sizeOf_spec, Prod.mk.sizeOf_spec]
        omega
      · cases found

/-- The aliases that a declaration sets. They may be any data: one that is no label shows when the
command is put under another. -/
def declaredAliases (spec : Spec) : Except Failure (List Document) :=
  if ¬ spec.truthy then .ok []
  else
    match spec with
    | .text s => .ok [.text s]
    | .list items => .ok (items.map Spec.document)
    | .table fields => .ok ((Table.keys fields).map .text)
    | .mapping entries => .ok (entries.map fun entry => entry.1.document)
    | other => .error (.mismatch ("'" ++ other.typeName ++ "' object is not iterable"))

/-- The handler that a declaration sets. -/
def declaredHandler (name : Label) : Spec → Except Failure (Option Handler)
  | .null => .ok none
  | .live (.handler handler) => .ok (some handler)
  | _ => .error (.invalidPlugin (name.display ++ ": fn must be callable"))

/-- The permission that a declaration sets. -/
def declaredPermission (name : Label) : Spec → Except Failure Int
  | .int n => .ok n
  | _ => .error (.invalidPlugin (name.display ++ ": perm must be an integer"))

/-- An argument as it is declared; a finished rule needs no reading. -/
def declaredParameter : Spec → Parameter
  | .live (.rule rule) => .parsed rule
  | spec => .declared spec

/-- The arguments that a declaration sets: a list of them, the characters of a text or the keys of a
table. -/
def declaredParameters : Spec → Except Failure (Option (List Parameter))
  | .null => .ok none
  | .list items => .ok (some (items.map declaredParameter))
  | .text s => .ok (some (s.toList.map fun c => .declared (.text (String.singleton c))))
  | .table fields => .ok (some ((Table.keys fields).map fun key => .declared (.text key)))
  | .mapping entries => .ok (some (entries.map fun entry => .declared entry.1.datum))
  | other => .error (.mismatch ("'" ++ other.typeName ++ "' object is not iterable"))

/-- How a declaration is named in an error about the whole of it. -/
def specTitle (name : Label) : String :=
  if name.truthy then name.display else "<root>"

/-- The failure of a list of unknown keys that cannot be told because some of them are no texts. -/
def untoldKeys (entries : Labelled Spec) : Failure :=
  let strange := (entries.map fun entry => entry.1.document).filter fun d => d.typeName ≠ "str"
  .mismatch ("sequence item 0: expected str instance, " ++ (strange.headD .null).typeName ++
    " found")

/-- The keys of a declaration that set nothing, in ascending order. -/
def unknownKeys (fields : Table Spec) : List String :=
  List.mergeSort (fields.keys.filter (· ∉ specKeys)) fun a b => a ≤ b

mutual

/-- Builds the command that a declaration describes, to be known as `name`. A finished command that
has no name takes this one. -/
def build (name : Label) (spec : Spec) : GraphM NodeId :=
  match spec with
  | .live (.node id) => do
    if ! ((← get).node id).name.truthy then
      modify fun g => g.update id fun node => { node with name }
    return id
  | .table fields => do
    let unknown := unknownKeys fields
    if unknown ≠ [] then
      throw (.invalidPlugin
        (specTitle name ++ ": unknown command keys: " ++ ", ".intercalate unknown))
    let aliases ← declaredAliases ((lastField? fields aliasKeys).getD .null)
    let handler ← declaredHandler name ((lastField? fields handlerKeys).getD .null)
    let permission ← declaredPermission name ((lastField? fields permissionKeys).getD (.int 0))
    let parameters ← declaredParameters ((lastField? fields parameterKeys).getD .null)
    let children ←
      match _ : lastField? fields childKeys with
      | some (.table children) => buildChildren children
      | some (.mapping children) => buildLabelled children
      | some other =>
        if other.truthy then throw (.invalidPlugin (name.display ++ ": subs must be a mapping"))
        else pure []
      | none => pure []
    let help := ((lastField? fields helpKeys).getD .null).document
    modifyGet fun g => g.add { name, help, aliases, permission, parameters, handler, children }
  | .mapping entries => throw (untoldKeys entries)
  | _ => throw (.invalidPlugin (specTitle name ++ ": command spec must be a mapping"))
termination_by sizeOf spec
decreasing_by
  all_goals
    have := sizeOf_lastField? ‹_›
    simp_wf
    simp only [Datum.table.sizeOf_spec, Datum.mapping.sizeOf_spec] at this
    omega

/-- Builds the sub-commands of a declaration, one after the other. -/
def buildChildren (children : List (String × Spec)) : GraphM Children :=
  match children with
  | [] => return []
  | (key, spec) :: rest => do
    let child ← build (.text key) spec
    return (.text key, child) :: (← buildChildren rest)
termination_by sizeOf children

/-- `buildChildren` where not all keys are texts. -/
def buildLabelled (children : List (Label × Spec)) : GraphM Children :=
  match children with
  | [] => return []
  | (label, spec) :: rest => do
    let child ← build label spec
    return (label, child) :: (← buildLabelled rest)
termination_by sizeOf children

end

end Switchboard.Graph
