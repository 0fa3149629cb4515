import FrameSorter.Proofs.Runs

/-!
# Runs that end before writing

A run writes nothing if it is only to check, if there is no configuration, or if it is strict and finds
validation errors (`CommandLine.EndsEarly`). Then it leaves the file system as it was: not even the
directory of the pack is created, nor one above it (`run_of_endsEarly`). A build without a configuration
offers no file to its sink, whatever the sink would do with it (`offered_of_unavailable`).
-/

set_option autoImplicit false
set_option relaxedAutoImplicit false

namespace FrameSorter

namespace CommandLine

/-- A run comes to its end before it would write. -/
inductive EndsEarly (files : FileSystem) (arguments : Arguments) : Prop
  | checked (hcheck : arguments.check = true)
  | unavailable {cause : LoadError}
      (hload : (loadConfig FileSystem.disk arguments.config files).1 = .error cause)
  | rejected {config : Configuration} (hstrict : arguments.strict = true)
      (hload : (loadConfig FileSystem.disk arguments.config files).1 = .ok config)
      (herrors : (compile config).errors ≠ [])

/-- Such a run leaves the file system as it was. -/
theorem run_of_endsEarly {files : FileSystem} {arguments : Arguments}
    (hearly : EndsEarly files arguments) : (run FileSystem.disk arguments files).2 = files := by
  obtain ⟨path, outDir, check, strict⟩ := arguments
  have hfiles := loadConfig_disk path files
  cases hload : loadConfig FileSystem.disk path files with
  | mk loaded final =>
    obtain rfl : final = files := by rwa [hload] at hfiles
    cases loaded with
    | error cause => rw [run_of_unavailable hload]
    | ok config =>
      by_cases haccepted : strict = true → (compile config).errors = []
      · cases check with
        | true => rw [run_of_check hload haccepted]
        | false =>
          -- Neither a check nor a failure is left, and the errors are accepted.
          cases hearly with
          | checked hcheck => cases hcheck
          | unavailable hfailed =>
            rw [hload] at hfailed
            cases hfailed
          | rejected hstrict hloaded herrors =>
            rw [hload] at hloaded
            obtain rfl := Except.ok.inj hloaded
            exact absurd (haccepted hstrict) herrors
      · obtain ⟨rfl, herrors⟩ := Classical.not_imp.mp haccepted
        rw [run_of_rejected hload herrors]

end CommandLine

/-- A build without a configuration ends in the state that the attempt to load it left, and it has
offered nothing to its sink. -/
theorem offered_of_unavailable {σ : Type} (disk : Disk (StateM σ)) (sink : Sink (StateM σ)) (path : Path)
    (start : σ) {cause : LoadError} (hload : (loadConfig disk path start).1 = .error cause) :
    Pack.build disk path sink start =
        (.error (.configUnavailable cause), (loadConfig disk path start).2) ∧
      Pack.build disk.onFirst path sink.listing (start, []) =
        (.error (.configUnavailable cause), ((loadConfig disk path start).2, [])) := by
  have hfailed : loadConfig disk path start = (.error cause, (loadConfig disk path start).2) :=
    Prod.ext hload rfl
  have hbeside := loadConfig_onFirst disk path start ([] : List (Path × String))
  rw [hload] at hbeside
  exact ⟨build_of_unavailable sink hfailed, build_of_unavailable sink.listing hbeside⟩

/-- What ends before writing leaves no trace: a run that ends early leaves the file system as it was,
and a build that cannot load its configuration offers no file to its sink. -/
theorem early_end_leaves_no_trace :
    (∀ (files : FileSystem) (arguments : CommandLine.Arguments),
      CommandLine.EndsEarly files arguments →
        (CommandLine.run FileSystem.disk arguments files).2 = files) ∧
      ∀ (σ : Type) (disk : Disk (StateM σ)) (sink : Sink (StateM σ)) (path : Path) (start : σ)
        (cause : LoadError), (loadConfig disk path start).1 = .error cause →
          Pack.build disk path sink start =
              (.error (.configUnavailable cause), (loadConfig disk path start).2) ∧
            Pack.build disk.onFirst path sink.listing (start, []) =
              (.error (.configUnavailable cause), ((loadConfig disk path start).2, [])) :=
  ⟨fun _ _ ↦ CommandLine.run_of_endsEarly,
    fun _ disk sink path start _ ↦ offered_of_unavailable disk sink path start⟩

/-- A file system with the configuration of one group, which has no identifier. -/
def namelessShelf : FileSystem where
  entries := [(["sorter.json"], .file "\x7b\"groups\":[\x7b\"groupName\":\"!\"\x7d]\x7d".toUTF8)]

/-- A strict run finds the validation error and leaves no directory, and a build of a configuration that
is not there offers nothing to a directory of the file system. -/
theorem early_end_leaves_no_trace_namelessShelf :
    CommandLine.EndsEarly namelessShelf
        { config := ⟨"sorter.json"⟩, outDir := ⟨"build/pack"⟩, check := false, strict := true } ∧
      (CommandLine.run FileSystem.disk
        { config := ⟨"sorter.json"⟩, outDir := ⟨"build/pack"⟩, check := false, strict := true }
          namelessShelf).2 = namelessShelf ∧
      (loadConfig FileSystem.disk ⟨"depot.json"⟩ namelessShelf).1 = .error (.io .notFound) ∧
      (Pack.build FileSystem.disk.onFirst ⟨"depot.json"⟩
        (FileSystem.disk.directorySink ⟨"build/pack"⟩).listing (namelessShelf, [])).2.2 = [] := by
  have hload : (loadConfig FileSystem.disk ⟨"sorter.json"⟩ namelessShelf).1 =
      .ok { groups := [{ name := "!" }] } := by
    decide +kernel
  have hearly : CommandLine.EndsEarly namelessShelf
      { config := ⟨"sorter.json"⟩, outDir := ⟨"build/pack"⟩, check := false, strict := true } :=
    .rejected rfl hload (by decide)
  have hmissing : (loadConfig FileSystem.disk ⟨"depot.json"⟩ namelessShelf).1 =
      .error (.io .notFound) := by
    decide +kernel
  have hbuild := (early_end_leaves_no_trace.2 FileSystem FileSystem.disk
    (FileSystem.disk.directorySink ⟨"build/pack"⟩) ⟨"depot.json"⟩ namelessShelf _ hmissing).2
  exact ⟨hearly, early_end_leaves_no_trace.1 _ _ hearly, hmissing,
    congrArg (fun outcome ↦ outcome.2.2) hbuild⟩

end FrameSorter
