import Graft.Command
import Graft.Proofs.FileTrees
import Graft.Proofs.Reopening

/-!
# The program and its files

A command reads all it needs before it writes or prints anything. So a command that fails leaves
all files as they were and has printed nothing; only `apply` changes a file, and when it succeeds,
what it wrote is the module that the batch came to.
-/

namespace Graft

namespace Desk

variable {α β : Type} {d d' : Desk} {path : String} {fault : Fault}

/-! ## Actions on a desk -/

/-- What an action comes to on a desk. -/
def after (d : Desk) (x : ExceptT Fault (StateM Desk) α) : Except Fault α × Desk := x.run.run d

theorem after_bind (d : Desk) (x : ExceptT Fault (StateM Desk) α)
    (f : α → ExceptT Fault (StateM Desk) β) :
    d.after (x >>= f) =
      match d.after x with
      | (.ok a, d') => d'.after (f a)
      | (.error fault, d') => (.error fault, d') := by
  show ExceptT.bindCont f (d.after x).1 (d.after x).2 = _
  rcases d.after x with ⟨_ | a, d'⟩ <;> rfl

theorem after_bind_ok {x : ExceptT Fault (StateM Desk) α} {f : α → ExceptT Fault (StateM Desk) β}
    {b : β} : d.after (x >>= f) = (.ok b, d') ↔
      ∃ a d₁, d.after x = (.ok a, d₁) ∧ d₁.after (f a) = (.ok b, d') := by
  rw [after_bind]
  rcases d.after x with ⟨refused | a, d₁⟩
  · simp
  · constructor
    · intro ran
      exact ⟨a, d₁, rfl, ran⟩
    · rintro ⟨_, _, ⟨⟩, ran⟩
      exact ran

theorem after_bind_error {x : ExceptT Fault (StateM Desk) α}
    {f : α → ExceptT Fault (StateM Desk) β} : d.after (x >>= f) = (.error fault, d') ↔
      d.after x = (.error fault, d') ∨
        ∃ a d₁, d.after x = (.ok a, d₁) ∧ d₁.after (f a) = (.error fault, d') := by
  rw [after_bind]
  rcases d.after x with ⟨refused | a, d₁⟩
  · simp
  · constructor
    · intro ran
      exact .inr ⟨a, d₁, rfl, ran⟩
    · rintro (refused | ⟨a', d₁', first, ran⟩)
      · cases refused
      · cases first
        exact ran

/-- The action only looks. -/
def Looks (x : ExceptT Fault (StateM Desk) α) : Prop := ∀ d : Desk, (d.after x).2 = d

theorem Looks.of_eq {x : ExceptT Fault (StateM Desk) α} {r : Except Fault α} (hx : Looks x)
    (ran : d.after x = (r, d')) : d' = d := by
  have same := hx d
  rwa [ran] at same

/-- What holds of the desk as it is, and after what follows, holds after both. -/
theorem Looks.bind_snd {x : ExceptT Fault (StateM Desk) α}
    {f : α → ExceptT Fault (StateM Desk) β} {P : Desk → Prop} (hx : Looks x) (stay : P d)
    (hf : ∀ a, P (d.after (f a)).2) : P (d.after (x >>= f)).2 := by
  rw [after_bind]
  rcases ran : d.after x with ⟨refused | a, d₁⟩
  · rw [hx.of_eq ran]
    exact stay
  · rw [hx.of_eq ran]
    exact hf a

theorem Looks.bind {x : ExceptT Fault (StateM Desk) α} {f : α → ExceptT Fault (StateM Desk) β}
    (hx : Looks x) (hf : ∀ a, Looks (f a)) : Looks (x >>= f) :=
  fun d => hx.bind_snd (P := (· = d)) rfl fun a => hf a d

/-- If the action fails, all files are as they were and nothing has been printed. -/
def Careful (x : ExceptT Fault (StateM Desk) α) : Prop :=
  ∀ (d : Desk) (fault : Fault) (d' : Desk), d.after x = (.error fault, d') →
    d'.tree.files = d.tree.files ∧ d'.printed = d.printed

theorem Looks.careful {x : ExceptT Fault (StateM Desk) α} (hx : Looks x) : Careful x := by
  intro d fault d' failed
  obtain rfl := hx.of_eq failed
  exact ⟨rfl, rfl⟩

/-- It may look around first. -/
theorem Looks.bind_careful {x : ExceptT Fault (StateM Desk) α}
    {f : α → ExceptT Fault (StateM Desk) β} (hx : Looks x) (hf : ∀ a, Careful (f a)) :
    Careful (x >>= f) := by
  intro d fault d' failed
  rcases after_bind_error.mp failed with refused | ⟨a, d₁, looked, failed'⟩
  · exact hx.careful d fault d' refused
  · obtain rfl := hx.of_eq looked
    exact hf a d₁ fault d' failed'

/-! ## What the world does -/

theorem after_read (d : Desk) (path : String) :
    d.after (ExceptT.mk (world.read path)) = ((d.tree.read path).mapError .transfer, d) := rfl

theorem after_pure (d : Desk) (x : Except Fault α) :
    d.after (ExceptT.mk (pure x)) = (x, d) := rfl

theorem after_write (d : Desk) (makeFolders : Bool) (path : String) (bytes : List UInt8) :
    d.after (ExceptT.mk (world.write makeFolders path bytes)) =
      ((d.tree.write makeFolders path bytes).2.mapError .transfer,
        { d with tree := (d.tree.write makeFolders path bytes).1 }) := rfl

theorem looks_read : Looks (ExceptT.mk (world.read path)) := fun _ => rfl

theorem looks_pure (x : Except Fault α) : Looks (ExceptT.mk (pure x)) := fun _ => rfl

theorem after_report (d : Desk) (result : Except Fault Report) :
    d.after (discard (ExceptT.mk (pure result))) = (discard result, d) := by
  cases result <;> rfl

theorem looks_readText : Looks (world.readText path) := by
  refine looks_read.bind fun bytes => ?_
  split
  · exact looks_pure (.ok _)
  · exact looks_pure (.error _)

theorem looks_openModule : Looks (world.openModule path) :=
  looks_read.bind fun _ => looks_pure _

theorem after_read_ok {bytes : List UInt8} :
    d.after (ExceptT.mk (world.read path)) = (.ok bytes, d') ↔
      d.tree.read path = .ok bytes ∧ d = d' := by
  rw [after_read, Prod.mk.injEq]
  refine and_congr_left' ?_
  cases d.tree.read path <;> simp [Except.mapError]

theorem after_pure_ok {x : Except Fault α} {a : α} :
    d.after (ExceptT.mk (pure x)) = (.ok a, d') ↔ x = .ok a ∧ d = d' := by
  rw [after_pure, Prod.mk.injEq]

/-- The file of a module that is opened is read and loaded. -/
theorem openModule_ok {m : Module} : d.after (world.openModule path) = (.ok m, d') ↔
    d = d' ∧ ∃ bytes f, d.tree.read path = .ok bytes ∧ ModuleFile.ofBytes bytes = .ok f ∧
      f.load = .ok m := by
  constructor
  · intro ran
    obtain ⟨bytes, d₁, read, loads⟩ := after_bind_ok.mp ran
    obtain ⟨found, rfl⟩ := after_read_ok.mp read
    obtain ⟨both, rfl⟩ := after_pure_ok.mp loads
    obtain ⟨f, parsed, loaded⟩ := bind_eq_ok.mp both
    exact ⟨rfl, bytes, f, found, parsed, loaded⟩
  · rintro ⟨rfl, bytes, f, read, parsed, loaded⟩
    refine after_bind_ok.mpr ⟨bytes, d, after_read_ok.mpr ⟨read, rfl⟩, ?_⟩
    exact after_pure_ok.mpr ⟨bind_eq_ok.mpr ⟨f, parsed, loaded⟩, rfl⟩

/-- The text of a file that is read is spelled by its bytes. -/
theorem readText_ok {text : String} : d.after (world.readText path) = (.ok text, d') ↔
    d = d' ∧ ∃ bytes, d.tree.read path = .ok bytes ∧ Text.Utf8.decodeString bytes = .ok text := by
  rw [World.readText, after_bind_ok]
  constructor
  · rintro ⟨bytes, d₁, read, decoded⟩
    obtain ⟨found, rfl⟩ := after_read_ok.mp read
    split at decoded
    · rename_i spelled
      cases decoded
      exact ⟨rfl, bytes, found, spelled⟩
    · cases decoded
  · rintro ⟨rfl, bytes, read, spelled⟩
    refine ⟨bytes, d, after_read_ok.mpr ⟨read, rfl⟩, ?_⟩
    rw [spelled]
    rfl

variable {m : Module} {makeFolders : Bool}

theorem careful_writeModule : Careful (world.writeModule makeFolders path m) := by
  refine (looks_pure m.toFile).bind_careful fun f d fault d' failed => ?_
  rw [after_write] at failed
  rcases ran : d.tree.write makeFolders path f.encode with ⟨tree, cause | _⟩ <;>
    rw [ran] at failed <;> cases failed
  exact ⟨(FileTree.write_eq_error ran).2.1, rfl⟩

theorem writeModule_ok : d.after (world.writeModule makeFolders path m) = (.ok (), d') ↔
    ∃ f, m.toFile = .ok f ∧ d.tree.write makeFolders path f.encode = (d'.tree, .ok ()) ∧
      d'.printed = d.printed := by
  rw [World.writeModule, after_bind_ok]
  constructor
  · rintro ⟨f, d₁, stored, written⟩
    obtain ⟨file, rfl⟩ := after_pure_ok.mp stored
    rw [after_write] at written
    refine ⟨f, file, ?_⟩
    rcases put : d.tree.write makeFolders path f.encode with ⟨tree, cause | _⟩ <;>
      rw [put] at written <;> cases written
    exact ⟨rfl, rfl⟩
  · rintro ⟨f, stored, written, printed⟩
    refine ⟨f, d, after_pure_ok.mpr ⟨stored, rfl⟩, ?_⟩
    rw [after_write, written, ← printed]
    rfl

theorem after_print (d : Desk) (text : String) :
    d.after (world.print text : StateM Desk Unit) =
      (.ok (), { d with printed := d.printed ++ text }) := rfl

theorem careful_print (text : String) : Careful (world.print text : StateM Desk Unit) := by
  intro d fault d' failed
  rw [after_print] at failed
  cases failed

/-- Texts are printed one behind the other. -/
theorem after_forM_print (texts : List MethodId) (text : MethodId → String) :
    d.after (texts.forM fun k => (world.print (text k) : StateM Desk Unit)) =
      (.ok (), { d with printed := d.printed ++ String.join (texts.map text) }) := by
  induction texts generalizing d with
  | nil =>
    show (Except.ok (), d) = _
    simp [String.join]
  | cons k texts ih =>
    show ({ d with printed := d.printed ++ text k } : Desk).after
      (texts.forM fun k => (world.print (text k) : StateM Desk Unit)) = _
    rw [ih, List.map_cons, String.join_cons, String.append_assoc]

end Desk

namespace Command

open Desk

variable {d d' : Desk} {plan output input : String} {type method : Option String} {m : Module}

/-- All went well: the plan and the input were read, the batch ran to its end, and the module that
it came to was written to the output. -/
structure Applied (plan output input : String) (d d' : Desk) (patches : List Patch)
    (m m' : Module) (report : Report) (f : ModuleFile) : Prop where
  planned : ∃ bytes text, d.tree.read plan = .ok bytes ∧
    Text.Utf8.decodeString bytes = .ok text ∧ Batch.ofPlan text = .ok patches
  opened : d.after (world.openModule input) = (.ok m, d)
  ran : (Batch.run patches).apply m = (.ok report, m')
  stored : m'.toFile = .ok f
  written : d.tree.write true output f.encode = (d'.tree, .ok ())
  printed : d'.printed = d.printed

theorem run_apply_ok : d.after ((apply plan output input).run world) = (.ok (), d') ↔
    ∃ patches m m' report f, Applied plan output input d d' patches m m' report f := by
  rw [run, after_bind_ok]
  constructor
  · rintro ⟨text, d₁, read, ran⟩
    obtain ⟨rfl, bytes, found, spelled⟩ := readText_ok.mp read
    obtain ⟨patches, d₂, parsed, ran⟩ := after_bind_ok.mp ran
    obtain ⟨batch, rfl⟩ := after_pure_ok.mp parsed
    obtain ⟨m, d₃, opened, ran⟩ := after_bind_ok.mp ran
    obtain rfl := (openModule_ok.mp opened).1
    rcases done : (Batch.run patches).apply m with ⟨fault | report, m'⟩ <;>
      simp only [done] at ran
    · obtain ⟨_, d₄, reported, -⟩ := after_bind_ok.mp ran
      rw [after_report] at reported
      cases reported
    · obtain ⟨_, d₄, reported, ran⟩ := after_bind_ok.mp ran
      rw [after_report] at reported
      cases reported
      obtain ⟨f, stored, written, printed⟩ := writeModule_ok.mp ran
      exact ⟨patches, m, m', report, f, ⟨bytes, text, found, spelled, batch⟩, opened, done, stored,
        written, printed⟩
  · rintro ⟨patches, m, m', report, f, applied⟩
    obtain ⟨bytes, text, found, spelled, batch⟩ := applied.planned
    refine ⟨text, d, readText_ok.mpr ⟨rfl, bytes, found, spelled⟩, ?_⟩
    refine after_bind_ok.mpr ⟨patches, d, after_pure_ok.mpr ⟨batch, rfl⟩, ?_⟩
    refine after_bind_ok.mpr ⟨m, d, applied.opened, ?_⟩
    simp only [applied.ran]
    refine after_bind_ok.mpr ⟨(), d, after_report d _, ?_⟩
    exact writeModule_ok.mpr ⟨f, applied.stored, applied.written, applied.printed⟩

theorem careful_run (c : Command) : Careful (c.run world) := by
  cases c with
  | apply plan output input =>
    refine looks_readText.bind_careful fun text => ?_
    refine (looks_pure _).bind_careful fun patches => looks_openModule.bind_careful fun m => ?_
    rcases (Batch.run patches).apply m with ⟨result, m'⟩
    refine Looks.bind_careful (fun d => ?_) fun _ => careful_writeModule
    rw [after_report]
  | dump type method input =>
    refine looks_openModule.bind_careful fun m => (looks_pure _).bind_careful fun ks => ?_
    intro d fault d' failed
    rw [after_forM_print] at failed
    cases failed
  | help => exact careful_print helpText
  | version => exact careful_print versionText

/-- Only `apply` changes files or makes folders. -/
theorem tree_run {c : Command} (other : ∀ plan output input, c ≠ apply plan output input) :
    (d.after (c.run world)).2.tree = d.tree := by
  cases c with
  | apply plan output input => exact absurd rfl (other plan output input)
  | dump type method input =>
    rw [run]
    refine looks_openModule.bind_snd (P := (·.tree = d.tree)) rfl fun m => ?_
    refine (looks_pure _).bind_snd (P := (·.tree = d.tree)) rfl fun ks => ?_
    rw [after_forM_print]
  | help => rfl
  | version => rfl

namespace Applied

variable {patches : List Patch} {m' : Module} {report : Report} {f : ModuleFile}
  (applied : Applied plan output input d d' patches m m' report f)
include applied

/-- The module of the input was loaded from a file that was read. -/
theorem loaded : m.Loaded := by
  obtain ⟨-, bytes, f, -, parsed, loaded⟩ := openModule_ok.mp applied.opened
  exact Module.loaded_of_ofBytes parsed loaded

/-- The output can be opened, and it is the module that the batch came to, unless a text or a
sequence is too long for its length to be written. -/
theorem open_output (room : m.arena.size ≤ Arena.capacity) (fits : Batch.Fits patches m)
    (short : f.Short) : d'.after (world.openModule output) = (.ok m', d') := by
  obtain ⟨bytes, text, -, -, batch⟩ := applied.planned
  obtain ⟨draft, -, -, storable, flags, rfl⟩ :=
    Batch.exists_last_draft applied.loaded room batch fits applied.ran
  obtain ⟨stored, decoded, loaded⟩ := storable.reopens flags
  obtain rfl : f = draft.view := Except.ok.inj (applied.stored.symm.trans stored)
  exact openModule_ok.mpr ⟨rfl, draft.view.encode, draft.view, FileTree.read_write applied.written,
    ModuleFile.ofBytes_eq_ok.mpr (decoded short), loaded⟩

end Applied

/-- The program ends as its command does. -/
theorem runArgs_eq (args : List String) (d : Desk) :
    (runArgs world args).run d =
      match read? args with
      | none => (.misused, d)
      | some c =>
        match d.after (c.run world) with
        | (.ok (), d') => (.done, d')
        | (.error fault, d') => (.failed fault, d') := by
  rw [runArgs]
  cases read? args with
  | none => rfl
  | some c =>
    have same : (c.run world).run.run d = d.after (c.run world) := rfl
    simp only [StateT.run_bind, same]
    rcases d.after (c.run world) with ⟨fault | _, d'⟩ <;> rfl

end Command

/-- Whatever the program is asked for: unless all goes well, all files are as they were and nothing
has been printed. Nothing but `apply` changes a file or makes a folder. If `apply` goes well, its
output is the file of the module that the batch came to, and whatever else could be read still can;
another path may lead to the output. -/
theorem program_transactional {args : List String} {d d' : Desk} {ending : Command.Ending}
    (ran : (Command.runArgs Desk.world args).run d = (ending, d')) :
    (ending ≠ .done → d'.tree.files = d.tree.files ∧ d'.printed = d.printed) ∧
    ((∀ plan output input, Command.read? args ≠ some (.apply plan output input)) →
      d'.tree = d.tree) ∧
    ∀ plan output input, Command.read? args = some (.apply plan output input) → ending = .done →
      ∃ patches m m' report f, Command.Applied plan output input d d' patches m m' report f ∧
        d'.tree.read output = .ok f.encode ∧
        ∀ path old, d.tree.read path = .ok old →
          d'.tree.read path = .ok old ∨ d'.tree.read path = .ok f.encode := by
  rw [Command.runArgs_eq] at ran
  cases asked : Command.read? args with
  | none =>
    rw [asked] at ran
    cases ran
    exact ⟨fun _ => ⟨rfl, rfl⟩, fun _ => rfl, nofun⟩
  | some c =>
    simp only [asked] at ran
    have tree : (∀ plan output input, c ≠ .apply plan output input) →
        (d.after (c.run Desk.world)).2.tree = d.tree := Command.tree_run
    rcases done : d.after (c.run Desk.world) with ⟨fault | _, d₁⟩ <;>
      simp only [done] at ran tree <;> cases ran
    · refine ⟨fun _ => Command.careful_run c d fault d' done, fun other => tree ?_, nofun⟩
      exact fun plan output input same => other plan output input (congrArg some same)
    · refine ⟨fun failed => absurd rfl failed, fun other => tree ?_, ?_⟩
      · exact fun plan output input same => other plan output input (congrArg some same)
      · rintro plan output input ⟨⟩ -
        obtain ⟨patches, m, m', report, f, applied⟩ := Command.run_apply_ok.mp done
        exact ⟨patches, m, m', report, f, applied, FileTree.read_write applied.written,
          fun path old => FileTree.read_write_other applied.written⟩

end Graft
