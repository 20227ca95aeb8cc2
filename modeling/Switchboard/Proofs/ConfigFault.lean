import Switchboard.Console.Session
import Switchboard.Proofs.Work

/-!
What reading a configuration can end with. Everything that is wrong with a document is told as a
fault of the configuration, and a session that meets one says so and ends with code 2. What is told
otherwise is listed by `Config.Escapes`: bytes that spell no text, a null character in the path of
the file or in the name of a user that a path in the document starts with, and a whole number with
more digits than can be read.
-/
namespace Switchboard

open Work

/-- The faults of a configuration. -/
def Failure.IsConfigFault (failure : Failure) : Prop :=
  ∃ text, failure = .invalidConfig text

@[simp] theorem Failure.isConfigFault_invalidConfig (text : String) :
    (Failure.invalidConfig text).IsConfigFault :=
  ⟨text, rfl⟩

namespace Environment

/-- Whether a text starts with a tilde and a user's name that holds a null character. -/
def namesNullUser (s : String) : Bool :=
  match s.toList with
  | '~' :: rest => '\x00' ∈ rest.takeWhile (· ≠ '/')
  | _ => false

theorem expandHome_cases (env : Environment) (s : String) :
    (namesNullUser s = true ∧ env.expandHome s = .error .nullCharacter) ∨
      namesNullUser s = false ∧ ∃ expanded, env.expandHome s = .ok expanded := by
  unfold namesNullUser expandHome
  generalize s.toList = cs
  by_cases tilde : ∃ rest, cs = '~' :: rest
  · obtain ⟨rest, rfl⟩ := tilde
    simp only
    split
    · rename_i null
      exact .inl ⟨decide_eq_true null, rfl⟩
    · rename_i named
      refine .inr ⟨decide_eq_false named, ?_⟩
      split
      · exact ⟨_, rfl⟩
      · exact ⟨_, rfl⟩
  · right
    constructor
    · split
      · exact absurd ⟨_, rfl⟩ tilde
      · rfl
    · split
      · exact absurd ⟨_, rfl⟩ tilde
      · exact ⟨s, rfl⟩

theorem path_cases (env : Environment) (s : String) :
    (namesNullUser s = true ∧ env.path s = .error .nullCharacter) ∨
      namesNullUser s = false ∧ ∃ path, env.path s = .ok path := by
  unfold path
  rcases expandHome_cases env s with ⟨null, barred⟩ | ⟨named, expanded, found⟩
  · exact .inl ⟨null, by rw [barred]; rfl⟩
  · exact .inr ⟨named, _, by rw [found]; rfl⟩

end Environment

namespace Config

/-- A field holds a path that names a user by a name with a null character in it. -/
def HoldsNullUser (fields : Table Document) (key : String) : Prop :=
  ∃ s, fields.get? key = some (.text s) ∧ Environment.namesNullUser (Text.strip s) = true

section Fields

variable {env : Environment} {base : Path} {fields : Table Document} {key title : String}

theorem isConfigFault_tableAt : FailsBy Failure.IsConfigFault (tableAt fields key) := by
  unfold tableAt
  split
  · exact .ok _
  · split <;> simp

theorem isConfigFault_pathAt? :
    FailsBy Failure.IsConfigFault (pathAt? env base title (fields.get? key)) ↔
      ¬ HoldsNullUser fields key := by
  unfold pathAt? HoldsNullUser
  cases found : fields.get? key with
  | none => simp
  | some value =>
    cases value with
    | text s =>
      dsimp only
      split
      · rename_i blank
        simp [blank, Environment.namesNullUser]
      · rcases Environment.path_cases env (Text.strip s) with
          ⟨null, barred⟩ | ⟨named, path, read⟩
        · rw [barred, Failure.ofObstacle, error_bind]
          simp [null, Failure.IsConfigFault]
        · rw [read, Failure.ofObstacle, ok_bind]
          simp [named]
    | _ => simp

theorem isConfigFault_errorPrefixOf (value : Option Document) :
    FailsBy Failure.IsConfigFault (errorPrefixOf value) := by
  unfold errorPrefixOf
  split <;> simp

theorem isConfigFault_pluginNameOf (name : Document) :
    FailsBy Failure.IsConfigFault (pluginNameOf name) := by
  unfold pluginNameOf pluginNameOf.malformed
  split
  · split <;> simp
  · simp

theorem isConfigFault_selectionOf (value : Option Document) :
    FailsBy Failure.IsConfigFault (selectionOf value) := by
  unfold selectionOf
  split
  · exact .ok _
  · exact .ok _
  · rw [FailsBy.bind_iff]
    exact ⟨.mapM fun name _ => isConfigFault_pluginNameOf name, fun names _ => .pure _⟩
  · simp

theorem isConfigFault_superusersOf (value : Option Document) :
    FailsBy Failure.IsConfigFault (superusersOf value) := by
  unfold superusersOf superusersOf.malformed
  split
  · exact .ok _
  · split <;> simp
  · simp

theorem isConfigFault_sectionOf (entry : String × Document) :
    FailsBy Failure.IsConfigFault (sectionOf entry) := by
  unfold sectionOf
  split <;> simp

end Fields

/-- A path in the table of commands, which is reached, names a user by a name with a null character
in it. -/
inductive ReachesNullUser (env : Environment) (base : Path) (fields : Table Document) : Prop
  | pluginsDir {commands : Table Document} {errorPrefix : String}
      (given : tableAt fields "commands" = .ok commands)
      (shown : errorPrefixOf (commands.get? "error-prefix") = .ok errorPrefix)
      (null : HoldsNullUser commands "plugins-dir")
  | statePath {commands : Table Document} {errorPrefix : String} {pluginsDir : Option Path}
      {plugins : Selection} {superusers : List CallerId}
      (given : tableAt fields "commands" = .ok commands)
      (shown : errorPrefixOf (commands.get? "error-prefix") = .ok errorPrefix)
      (found : pathAt? env base "commands.plugins-dir" (commands.get? "plugins-dir") =
        .ok pluginsDir)
      (chosen : selectionOf (commands.get? "plugins") = .ok plugins)
      (trusted : superusersOf (commands.get? "superusers") = .ok superusers)
      (null : HoldsNullUser commands "state-path")

/-- Each field is read in its turn, and only paths can fail otherwise than by a fault of the
configuration. -/
theorem isConfigFault_ofDocument {env : Environment} {base : Path} {fields : Table Document} :
    FailsBy Failure.IsConfigFault (ofDocument env base (.table fields)) ↔
      ¬ ReachesNullUser env base fields := by
  have fieldsOf : (Datum.table fields : Document).fields? = some fields := rfl
  unfold ofDocument
  rw [fieldsOf]
  dsimp only
  have settings (errorPrefix : String) (pluginsDir : Option Path) (plugins : Selection)
      (superusers : List CallerId) (statePath : Option Path) :
      FailsBy Failure.IsConfigFault do
        let settings ← (← tableAt fields "plugins").mapM sectionOf
        return ({ errorPrefix, pluginsDir, plugins, superusers, statePath,
                  settings } : Config) := by
    rw [FailsBy.bind_iff]
    refine ⟨isConfigFault_tableAt, fun sections _ => ?_⟩
    rw [FailsBy.bind_iff]
    exact ⟨.mapM fun entry _ => isConfigFault_sectionOf entry, fun settings _ => .pure _⟩
  simp only [FailsBy.bind_iff, isConfigFault_tableAt, isConfigFault_pathAt?,
    isConfigFault_errorPrefixOf, isConfigFault_selectionOf, isConfigFault_superusersOf, true_and]
  constructor
  · intro fair reached
    cases reached with
    | pluginsDir given shown null => exact (fair _ given _ shown).1 null
    | statePath given shown found chosen trusted null =>
      exact ((fair _ given _ shown).2 _ found _ chosen _ trusted).1 null
  · intro never commands given errorPrefix shown
    refine ⟨fun null => never (.pluginsDir given shown null), ?_⟩
    intro pluginsDir found plugins chosen superusers trusted
    refine ⟨fun null => never (.statePath given shown found chosen trusted null), ?_⟩
    intro statePath _
    have last := settings errorPrefix pluginsDir plugins superusers statePath
    simpa only [FailsBy.bind_iff, isConfigFault_tableAt, true_and] using last

/-- A null character in the name of a user is told by what it is, not by the field it stands in. -/
example :
    ofDocument {} {} (.table [("commands", .table [("state-path", .text "~\x00/state")])]) =
      .error (.unreachable (Path.ofText "~\x00/state") .nullCharacter) :=
  rfl

/-- What makes reading a configuration fail otherwise than by a fault of the configuration. -/
inductive Escapes (env : Environment) (path : Path) : Option Content → Prop
  | undecodable : Escapes env path (some .undecodable)
  | nullPath : Escapes env path (some (.barred .nullCharacter))
  | tooLong {s : String} {digits : Nat}
      (read : Toml.parse (String.ofList (Text.unifyNewlines s.toList)) = .error (.tooLong digits)) :
      Escapes env path (some (.text s))
  | nullUser {s : String} {fields : Table Document}
      (read : Toml.parse (String.ofList (Text.unifyNewlines s.toList)) = .ok fields)
      (reached : ReachesNullUser env path.parent fields) : Escapes env path (some (.text s))

variable {env : Environment} {path : Path}

theorem isConfigFault_ofText {s : String} :
    FailsBy Failure.IsConfigFault (ofText env path s) ↔ ¬ Escapes env path (some (.text s)) := by
  unfold ofText
  cases read : Toml.parse (String.ofList (Text.unifyNewlines s.toList)) with
  | error fault =>
    cases fault with
    | malformed =>
      refine iff_of_true (by simp) fun escaped => ?_
      cases escaped with
      | tooLong other => cases read.symm.trans other
      | nullUser other => cases read.symm.trans other
    | tooLong digits =>
      refine iff_of_false (by simp [Failure.IsConfigFault]) fun never => never (.tooLong read)
  | ok fields =>
    dsimp only
    rw [FailsBy.bind_iff, isConfigFault_ofDocument]
    constructor
    · rintro ⟨never, -⟩ escaped
      cases escaped with
      | tooLong other => cases read.symm.trans other
      | nullUser other reached =>
        obtain rfl := Except.ok.inj (read.symm.trans other)
        exact never reached
    · intro never
      exact ⟨fun reached => never (.nullUser read reached), fun config _ => .pure _⟩

theorem isConfigFault_ofFile {content : Option Content} :
    FailsBy Failure.IsConfigFault (ofFile env path content) ↔ ¬ Escapes env path content := by
  match content with
  | none => exact iff_of_true (by simp [ofFile, unreadable]) nofun
  | some .directory => exact iff_of_true (by simp [ofFile, unreadable]) nofun
  | some .undecodable =>
    exact iff_of_false (by simp [ofFile, Failure.IsConfigFault]) fun never => never .undecodable
  | some (.barred .nullCharacter) =>
    exact iff_of_false (by simp [ofFile, Failure.IsConfigFault]) fun never => never .nullPath
  | some (.barred .tooLong) => exact iff_of_true (by simp [ofFile, unreadable]) nofun
  | some (.barred .notDirectory) => exact iff_of_true (by simp [ofFile, unreadable]) nofun
  | some (.text s) => exact isConfigFault_ofText

/-- Whatever stands at the path of the configuration, it is read, or a session says that it failed
to load it and ends with code 2, unless its content escapes. -/
theorem loads_or_complains_iff (env : Environment) (path : Path) (content : Option Content) :
    ((∃ config, ofFile env path content = .ok config) ∨
        ∃ text, ofFile env path content = .error (.invalidConfig text) ∧
          Console.refusal (.invalidConfig text) = ("Failed to load config: " ++ text ++ "\n", 2)) ↔
      ¬ Escapes env path content := by
  rw [← isConfigFault_ofFile]
  cases ofFile env path content with
  | ok config => simp
  | error failure =>
    rw [FailsBy.error_iff]
    constructor
    · rintro (⟨config, loaded⟩ | ⟨text, failed, -⟩)
      · cases loaded
      · exact ⟨text, Except.error.inj failed⟩
    · rintro ⟨text, rfl⟩
      exact .inr ⟨text, rfl, rfl⟩

/-- A byte that starts no character is told as what it is. -/
theorem escapes_byte :
    ¬ ((∃ config, ofFile {} (Path.ofText "/etc/bot.toml") (some (.ofBytes ⟨#[0xff]⟩)) =
          .ok config) ∨
        ∃ text, ofFile {} (Path.ofText "/etc/bot.toml") (some (.ofBytes ⟨#[0xff]⟩)) =
            .error (.invalidConfig text) ∧
          Console.refusal (.invalidConfig text) =
            ("Failed to load config: " ++ text ++ "\n", 2)) := by
  have undecodable : Content.ofBytes ⟨#[0xff]⟩ = .undecodable := by decide
  rw [undecodable]
  rintro (⟨config, loaded⟩ | ⟨text, failed, -⟩)
  · cases loaded
  · cases Except.error.inj failed

end Config
end Switchboard
