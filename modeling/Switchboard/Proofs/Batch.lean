import Switchboard.Proofs.PluginLoad

/-!
Loading several plugins, one after the other. Those that cannot be set up are passed over and leave
the keys of the root alone; the names of the others are given in the same order. All of it is cut
short by a plugin that can be set up but has an alias that is no label.
-/
namespace Switchboard.Plugin

open Work Switchboard.Graph

/-- The plugins among those of a directory that a selection chooses, in its order. -/
def chosen (available : Table Module) : Selection → Table Module
  | .pattern glob => available.filter fun entry => Text.globMatches glob entry.1
  | .names names =>
    names.filterMap fun stem => (available.get? stem).map fun found => (stem, found)

theorem mem_of_chosen {available : Table Module} {selection : Selection} {entry : String × Module}
    (member : entry ∈ chosen available selection) : entry ∈ available := by
  cases selection with
  | pattern glob => exact List.mem_of_mem_filter member
  | names names =>
    obtain ⟨stem, -, found⟩ := List.mem_filterMap.mp member
    obtain ⟨module, here, rfl⟩ := Option.map_eq_some_iff.mp found
    exact Table.mem_of_get? here

/-- Choosing plugins never fails, and at most tells of those that are missing. -/
theorem run_select (available : Table Module) (selection : Selection) (bot : Bot) :
    ∃ later, (select available selection).run bot = (.ok (chosen available selection), later) ∧
      later.graph = bot.graph := by
  cases selection with
  | pattern glob => exact ⟨bot, rfl, rfl⟩
  | names names =>
    unfold select chosen
    induction names generalizing bot with
    | nil => exact ⟨bot, rfl, rfl⟩
    | cons stem rest ih =>
      dsimp only at ih ⊢
      rw [run_filterMapM_cons]
      cases found : available.get? stem with
      | some module =>
        obtain ⟨later, ran, same⟩ := ih bot
        refine ⟨later, ?_, same⟩
        rw [run_pure, List.filterMap_cons, found]
        dsimp only
        rw [ran]
        rfl
      | none =>
        obtain ⟨later, ran, same⟩ := ih { bot with log := bot.log ++ [.pluginMissing stem] }
        refine ⟨later, ?_, same⟩
        rw [List.filterMap_cons, found]
        exact ran

/-- A plugin that can be set up, and whose command has an alias that is no label. -/
def Breaks (bot : Bot) (entry : String × Module) : Prop :=
  ∃ made middle, Readies bot entry made middle ∧ ¬ (middle.graph.node made.2).IsKeyed

/-- Plugins none of which breaks when its turn comes. -/
def Survives (bot : Bot) : Table Module → Prop
  | [] => True
  | entry :: rest => ¬ Breaks bot entry ∧ Survives ((loadOne entry).run bot).2 rest

theorem survives_cons {bot later : Bot} {entry : String × Module} {rest : Table Module}
    {result : Except Failure (Option Label)} (fine : ¬ Breaks bot entry)
    (ran : (loadOne entry).run bot = (result, later)) :
    Survives bot (entry :: rest) ↔ Survives later rest := by
  rw [Survives, ran]
  exact and_iff_right fine

/-- Plugins attempted one after the other, each once: one that is passed over leaves the keys of the
root as they are, and the names of the others, which stand under the root then, are collected. -/
inductive Attempts : Bot → Table Module → List Label → Bot → Prop
  | nil {bot : Bot} : Attempts bot [] [] bot
  | passedOver {bot middle last : Bot} {entry : String × Module} {rest : Table Module}
    {names : List Label} (attempt : (loadOne entry).run bot = (.ok none, middle))
    (same : (middle.graph.node root).children = (bot.graph.node root).children)
    (others : Attempts middle rest names last) : Attempts bot (entry :: rest) names last
  | linked {bot middle last : Bot} {entry : String × Module} {rest : Table Module} {name : Label}
    {id : NodeId} {names : List Label}
    (attempt : (loadOne entry).run bot = (.ok (some name), middle))
    (linked : (middle.graph.node root).children.get? name = some id)
    (others : Attempts middle rest names last) : Attempts bot (entry :: rest) (name :: names) last

/-- What loading one plugin leaves is a bot of the same kind, whatever the plugin comes to, unless
it breaks. -/
theorem loadOne_cases {bot : Bot} {entry : String × Module} (rooted : bot.graph.IsRooted)
    (known : entry.2.IsKnownIn bot.graph) :
    (Breaks bot entry ∧ ∃ failure later, (loadOne entry).run bot = (.error failure, later)) ∨
      ¬ Breaks bot entry ∧ ∃ later, later.graph.IsRooted ∧ bot.graph.size ≤ later.graph.size ∧
        ((loadOne entry).run bot = (.ok none, later) ∧
            (later.graph.node root).children = (bot.graph.node root).children ∨
          ∃ name id, (loadOne entry).run bot = (.ok (some name), later) ∧
            (later.graph.node root).children.get? name = some id) := by
  have loads := loads_loadOne rooted known
  rcases ran : (loadOne entry).run bot with ⟨result, later⟩
  rw [ran] at loads
  dsimp only at loads
  generalize same : later.graph = graph at loads
  cases loads with
  | passedOver unready rests =>
    refine .inr ⟨fun breaks => ?_, later, ?_, ?_, .inl ⟨rfl, ?_⟩⟩
    · obtain ⟨made, middle, ready, -⟩ := breaks
      exact unready made middle ready
    · exact same ▸ rests.rooted
    · exact same ▸ rests.grown
    · exact same ▸ rests.children
  | @linked made middle ready setUp keyed =>
    obtain ⟨-, rests, prepared⟩ := setUp
    have inside := lt_size_of_prepared prepared
    refine .inr ⟨fun breaks => ?_, later, ?_, ?_, .inr ⟨made.1, made.2, rfl, ?_⟩⟩
    · obtain ⟨another, other, again, unkeyed⟩ := breaks
      obtain ⟨rfl, rfl⟩ := ready.unique again
      exact unkeyed keyed
    · rw [same]
      exact isRooted_installed rests.rooted inside
    · rw [same, installed, size_withChildren]
      exact rests.grown
    · rw [same, get?_installed rests.rooted, Label.same_refl]
      split <;> rfl
  | raised ready setUp unkeyed =>
    exact .inl ⟨⟨_, _, ready, unkeyed⟩, _, later, rfl⟩

/-- Plugins are attempted one after the other up to one that breaks. -/
theorem run_attempts {entries : Table Module} {bot : Bot} (rooted : bot.graph.IsRooted)
    (known : ∀ entry ∈ entries, entry.2.IsKnownIn bot.graph) :
    (¬ Survives bot entries ∧
        ∃ failure last, (entries.filterMapM loadOne).run bot = (.error failure, last)) ∨
      Survives bot entries ∧ ∃ names last,
        (entries.filterMapM loadOne).run bot = (.ok names, last) ∧
          Attempts bot entries names last := by
  induction entries generalizing bot with
  | nil => exact .inr ⟨trivial, [], bot, rfl, .nil⟩
  | cons entry rest ih =>
    rw [run_filterMapM_cons]
    rcases loadOne_cases rooted (known entry List.mem_cons_self) with
      ⟨breaks, failure, later, ran⟩ | ⟨fine, later, still, grown, passed | linked⟩
    · rw [ran]
      exact .inl ⟨fun survives => survives.1 breaks, failure, later, rfl⟩
    -- What is left survives after this plugin just if all do from here.
    all_goals
      have goOn := ih still fun other member =>
        (known other (List.mem_cons_of_mem entry member)).mono grown
    · obtain ⟨ran, same⟩ := passed
      rw [ran, survives_cons fine ran]
      rcases goOn with stopped | ⟨survives, names, last, done, attempts⟩
      · exact .inl stopped
      · exact .inr ⟨survives, names, last, done, .passedOver ran same attempts⟩
    · obtain ⟨name, id, ran, found⟩ := linked
      rw [ran, survives_cons fine ran]
      dsimp only
      rcases goOn with ⟨stops, failure, last, failed⟩ | ⟨survives, names, last, done, attempts⟩
      · rw [failed]
        exact .inl ⟨stops, failure, last, rfl⟩
      · rw [done]
        exact .inr ⟨survives, name :: names, last, rfl, .linked ran found attempts⟩

/-- With a directory to look in, its plugins are chosen from and then loaded. -/
theorem run_load {bot : Bot} {path : Path} (configured : bot.config.pluginsDir = some path)
    (directory : Directory) (selection : Selection) :
    (load (some directory) selection).run bot =
      (select directory.plugins selection >>= fun modules => modules.filterMapM loadOne).run
        bot := by
  unfold load available
  rw [run_bind_ok _ (run_get bot), configured]
  dsimp only
  rw [run_bind_ok _ (run_ofExcept _ bot)]

/-- A bot that was told where its plugins are. -/
def waiting : Bot :=
  { config := { pluginsDir := some {} } }

/-- A plugin that cannot be set up, between two that can. -/
def mixed : Directory :=
  [("a.py", .module (aliased [.text "x"])), ("b.py", .module { setup := .fails (.mismatch "no") }),
    ("c.py", .module (aliased []))]

theorem plugins_mixed : mixed.plugins =
    [("a", aliased [.text "x"]), ("b", { setup := .fails (.mismatch "no") }),
      ("c", aliased [])] := by
  have sorted : Table.sorted mixed = mixed := List.mergeSort_of_pairwise (by simp [mixed])
  rw [Directory.plugins, sorted]
  rfl

/-- A plugin whose alias is a list, before one that has no aliases. -/
def faulty : Directory :=
  [("a.py", .module (aliased [.list [.text "x"]])), ("b.py", .module (aliased []))]

theorem plugins_faulty : faulty.plugins =
    [("a", aliased [.list [.text "x"]]), ("b", aliased [])] := by
  have sorted : Table.sorted faulty = faulty := List.mergeSort_of_pairwise (by simp [faulty])
  rw [Directory.plugins, sorted]
  rfl

/-- Loading the chosen plugins of a directory returns just if none of them breaks, and then each was
attempted once, in their order. -/
theorem load_returns_iff {bot : Bot} {path : Path}
    (configured : bot.config.pluginsDir = some path) (rooted : bot.graph.IsRooted)
    (directory : Directory) (selection : Selection)
    (known : ∀ entry ∈ directory.plugins, entry.2.IsKnownIn bot.graph) :
    ∃ ready, (select directory.plugins selection).run bot =
        (.ok (chosen directory.plugins selection), ready) ∧ ready.graph = bot.graph ∧
      (((load (some directory) selection).run bot).1.isOk = true ↔
        Survives ready (chosen directory.plugins selection)) ∧
      ∀ names last, (load (some directory) selection).run bot = (.ok names, last) →
        Attempts ready (chosen directory.plugins selection) names last := by
  obtain ⟨ready, ran, same⟩ := run_select directory.plugins selection bot
  have all : ∀ entry ∈ chosen directory.plugins selection, entry.2.IsKnownIn ready.graph :=
    fun entry member => same ▸ known entry (mem_of_chosen member)
  refine ⟨ready, ran, same, ?_⟩
  rw [run_load configured, run_bind_ok _ ran]
  rcases run_attempts (same ▸ rooted) all with
    ⟨stops, failure, last, failed⟩ | ⟨survives, names, last, done, attempts⟩
  · rw [failed]
    refine ⟨iff_of_false Bool.false_ne_true stops, fun names last done => ?_⟩
    cases (Prod.mk.inj done).1
  · rw [done]
    refine ⟨iff_of_true rfl survives, fun others end_ again => ?_⟩
    obtain ⟨result, rfl⟩ := Prod.mk.inj again
    obtain rfl := Except.ok.inj result
    exact attempts

/-- The plugins around one that cannot be set up are loaded, in the order that they are named in. -/
theorem load_mixed :
    ∃ ready last, ready.graph = waiting.graph ∧
      (load (some mixed) (.names ["c", "b", "a"])).run waiting =
        (.ok [.text "c", .text "a"], last) ∧
      Attempts ready (chosen mixed.plugins (.names ["c", "b", "a"])) [.text "c", .text "a"]
        last := by
  have known : ∀ entry ∈ mixed.plugins, entry.2.IsKnownIn waiting.graph := by
    rw [plugins_mixed]
    simp only [List.forall_mem_cons]
    exact ⟨isKnownIn_declares rfl _, nofun, isKnownIn_declares rfl _, List.forall_mem_nil _⟩
  obtain ⟨ready, -, same, -, attempts⟩ :=
    load_returns_iff rfl Graph.isRooted_start mixed (.names ["c", "b", "a"]) known
  have loaded : ((load (some mixed) (.names ["c", "b", "a"])).run waiting).1.toOption =
      some [.text "c", .text "a"] := by
    rw [run_load rfl, plugins_mixed]
    decide +kernel
  have ran := run_eq_of_toOption loaded
  exact ⟨ready, _, same, ran, attempts _ _ ran⟩

/-- A plugin that breaks keeps the others from being attempted. -/
theorem load_faulty :
    waiting.config.pluginsDir = some {} ∧ waiting.graph.IsRooted ∧
      (∀ entry ∈ faulty.plugins, entry.2.IsKnownIn waiting.graph) ∧
      ((load (some faulty) (.names ["a", "b"])).run waiting).1.isOk = false ∧
      (((load (some faulty) (.names ["a", "b"])).run waiting).2.graph.node Graph.root).children.get?
        (.text "b") = none := by
  refine ⟨rfl, Graph.isRooted_start, ?_, ?_⟩
  · rw [plugins_faulty]
    simp only [List.forall_mem_cons]
    exact ⟨isKnownIn_declares rfl _, isKnownIn_declares rfl _, List.forall_mem_nil _⟩
  · rw [run_load rfl, plugins_faulty]
    decide +kernel

end Switchboard.Plugin
