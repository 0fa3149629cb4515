import FrameSorter.Pack.Building

/-!
# Programs that act alike

Loading a configuration and writing a pack act in any monad, through a disk and through a sink. So they
cannot tell apart two disks, or two sinks, that answer alike. What it means for two actions to be alike
is given by a relation that holds of equal values and is kept by going on alike (`Simulation`). From
disks that answer alike configurations are loaded alike (`Simulation.Disks.loadConfig`), and to sinks
that answer alike packs are written alike (`Simulation.Sinks.write`).

Three relations are used. By `Simulation.onFirst` and `Simulation.onSecond` an action does the same on
one of two states and leaves the other alone; so a disk is read beside a sink that has a state of its
own (`loadConfig_onFirst`, `write_onSecond`). By `Simulation.unchanging` an action leaves its state
alone, as looking things up does with a file system (`loadConfig_disk`).
-/

set_option autoImplicit false
set_option relaxedAutoImplicit false

namespace FrameSorter

/-! ### Simulations -/

/-- A relation between the actions of two monads that holds of equal values, and of sequences of actions
of which each is related to its counterpart. -/
structure Simulation (m n : Type → Type) [Monad m] [Monad n] where
  Alike : ∀ {α : Type}, m α → n α → Prop
  pure : ∀ {α : Type} (value : α), Alike (Pure.pure value : m α) (Pure.pure value : n α)
  bind : ∀ {α β : Type} {first : m α} {second : n α} {next : α → m β} {follow : α → n β},
    Alike first second → (∀ value, Alike (next value) (follow value)) →
      Alike (first >>= next) (second >>= follow)

namespace Simulation

variable {m n : Type → Type} [Monad m] [Monad n] (simulation : Simulation m n)

/-- Two disks answer alike when something is looked up. -/
structure Disks (first : Disk m) (second : Disk n) : Prop where
  isPresent : ∀ path, simulation.Alike (first.isPresent path) (second.isPresent path)
  isDirectory : ∀ path, simulation.Alike (first.isDirectory path) (second.isDirectory path)
  readText : ∀ path, simulation.Alike (first.readText path) (second.readText path)

/-- Two sinks answer alike when they are offered a file. -/
def Sinks (first : Sink m) (second : Sink n) : Prop :=
  ∀ path content, simulation.Alike (first.write path content) (second.write path content)

variable {simulation}

/-! ### Loading -/

namespace Disks

variable {first : Disk m} {second : Disk n}

theorem presentPaths (hdisks : simulation.Disks first second) (paths : List Path) :
    simulation.Alike (FrameSorter.presentPaths first paths)
      (FrameSorter.presentPaths second paths) := by
  induction paths with
  | nil => exact simulation.pure []
  | cons path paths ih =>
    refine simulation.bind (hdisks.isPresent path) fun _ ↦ simulation.bind ih fun _ ↦ ?_
    exact simulation.pure _

theorem findConfigFile (hdisks : simulation.Disks first second) (directory : Path)
    (baseName : String) :
    simulation.Alike (FrameSorter.findConfigFile first directory baseName)
      (FrameSorter.findConfigFile second directory baseName) := by
  refine simulation.bind (presentPaths hdisks _) fun present ↦ ?_
  match present with
  | [] => exact simulation.pure _
  | [_] => exact simulation.pure _
  | _ :: _ :: _ => exact simulation.pure _

theorem requireConfigFile (hdisks : simulation.Disks first second) (directory : Path)
    (baseName : String) :
    simulation.Alike (FrameSorter.requireConfigFile first directory baseName)
      (FrameSorter.requireConfigFile second directory baseName) := by
  refine simulation.bind (findConfigFile hdisks directory baseName) fun found ↦ ?_
  match found with
  | .error _ => exact simulation.pure _
  | .ok none => exact simulation.pure _
  | .ok (some _) => exact simulation.pure _

theorem configFile (hdisks : simulation.Disks first second) (path : Path) :
    simulation.Alike (FrameSorter.configFile first path) (FrameSorter.configFile second path) := by
  refine simulation.bind (hdisks.isDirectory path) fun isDirectory ↦ ?_
  cases isDirectory with
  | true => exact requireConfigFile hdisks path _
  | false => exact simulation.pure _

theorem loadFile (hdisks : simulation.Disks first second) (file : Path) :
    simulation.Alike (FrameSorter.loadFile first file) (FrameSorter.loadFile second file) := by
  unfold FrameSorter.loadFile
  cases detectFormat file with
  | error error => exact simulation.pure _
  | ok format =>
    refine simulation.bind (hdisks.readText file) fun content ↦ ?_
    cases content with
    | error failure => exact simulation.pure _
    | ok content => exact simulation.pure _

/-- From disks that answer alike configurations are loaded alike. -/
theorem loadConfig (hdisks : simulation.Disks first second) (path : Path) :
    simulation.Alike (FrameSorter.loadConfig first path) (FrameSorter.loadConfig second path) := by
  refine simulation.bind (configFile hdisks path) fun file ↦ ?_
  cases file with
  | error error => exact simulation.pure _
  | ok file => exact loadFile hdisks file

end Disks

/-! ### Writing -/

namespace Sinks

variable {first : Sink m} {second : Sink n}

theorem writeFiles (hsinks : simulation.Sinks first second)
    (files : List (Path × String)) :
    simulation.Alike (Pack.writeFiles first files) (Pack.writeFiles second files) := by
  induction files with
  | nil => exact simulation.pure _
  | cons file files ih =>
    refine simulation.bind (hsinks file.1 file.2) fun answer ↦ ?_
    cases answer with
    | error cause => exact simulation.pure _
    | ok _ => exact ih

/-- To sinks that answer alike packs are written alike. -/
theorem write (hsinks : simulation.Sinks first second)
    (compilation : Compilation) (options : PackOptions) :
    simulation.Alike (Pack.write compilation options first)
      (Pack.write compilation options second) := by
  refine simulation.bind (writeFiles hsinks _) fun answer ↦ ?_
  cases answer with
  | error failure => exact simulation.pure _
  | ok _ => exact simulation.pure _

end Sinks

end Simulation

/-! ### One state beside another -/

section Beside

variable {σ τ : Type}

/-- The second action does with the first of two states what the first action does with a state, and
leaves the second one alone. -/
def Simulation.onFirst : Simulation (StateM σ) (StateM (σ × τ)) where
  Alike first second :=
    ∀ state other, second (state, other) = ((first state).1, ((first state).2, other))
  pure _ _ _ := rfl
  bind hfirst hnext state other := by
    simp only [Bind.bind, StateT.bind, hfirst]
    exact hnext _ _ _

/-- The second action does with the second of two states what the first action does with a state, and
leaves the first one alone. -/
def Simulation.onSecond : Simulation (StateM τ) (StateM (σ × τ)) where
  Alike first second :=
    ∀ other state, second (other, state) = ((first state).1, (other, (first state).2))
  pure _ _ _ := rfl
  bind hfirst hnext other state := by
    simp only [Bind.bind, StateT.bind, hfirst]
    exact hnext _ _ _

/-- A disk whose state is the first of two. -/
def Disk.onFirst (disk : Disk (StateM σ)) : Disk (StateM (σ × τ)) where
  isPresent path := fun (state, other) ↦
    ((disk.isPresent path state).1, ((disk.isPresent path state).2, other))
  isDirectory path := fun (state, other) ↦
    ((disk.isDirectory path state).1, ((disk.isDirectory path state).2, other))
  readText path := fun (state, other) ↦
    ((disk.readText path state).1, ((disk.readText path state).2, other))
  store root path content := fun (state, other) ↦
    ((disk.store root path content state).1, ((disk.store root path content state).2, other))

/-- A sink whose state is the second of two. -/
def Sink.onSecond (sink : Sink (StateM τ)) : Sink (StateM (σ × τ)) where
  write path content := fun (other, state) ↦
    ((sink.write path content state).1, (other, (sink.write path content state).2))

/-- Beside another state a configuration is loaded as without it. -/
theorem loadConfig_onFirst (disk : Disk (StateM σ)) (path : Path) (state : σ) (other : τ) :
    loadConfig disk.onFirst path (state, other) =
      ((loadConfig disk path state).1, ((loadConfig disk path state).2, other)) := by
  have hdisks : Simulation.onFirst.Disks disk (disk.onFirst : Disk (StateM (σ × τ))) :=
    ⟨fun _ _ _ ↦ rfl, fun _ _ _ ↦ rfl, fun _ _ _ ↦ rfl⟩
  exact hdisks.loadConfig path state other

/-- Beside another state a pack is written as without it. -/
theorem write_onSecond (sink : Sink (StateM τ)) (compilation : Compilation) (options : PackOptions)
    (other : σ) (state : τ) :
    Pack.write compilation options sink.onSecond (other, state) =
      ((Pack.write compilation options sink state).1,
        (other, (Pack.write compilation options sink state).2)) := by
  have hsinks : Simulation.onSecond.Sinks sink (sink.onSecond : Sink (StateM (σ × τ))) :=
    fun _ _ _ _ ↦ rfl
  exact hsinks.write compilation options other state

end Beside

/-! ### Looking things up -/

/-- An action that leaves its state alone; what it is compared with does not matter. -/
def Simulation.unchanging {σ : Type} : Simulation (StateM σ) (StateM σ) where
  Alike first _ := ∀ state, (first state).2 = state
  pure _ _ := rfl
  bind {_ _ first _ _ _} hfirst hnext state := by
    simp only [Bind.bind, StateT.bind]
    exact (hnext _ _).trans (hfirst state)

/-- To load a configuration does not change the file system. -/
theorem loadConfig_disk (path : Path) (files : FileSystem) :
    (loadConfig FileSystem.disk path files).2 = files := by
  have hdisks : Simulation.unchanging.Disks FileSystem.disk FileSystem.disk :=
    ⟨fun _ _ ↦ rfl, fun _ _ ↦ rfl, fun _ _ ↦ rfl⟩
  exact hdisks.loadConfig path files

end FrameSorter
