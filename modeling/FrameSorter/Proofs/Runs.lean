import FrameSorter.CommandLine
import FrameSorter.Proofs.MemoryWrites
import FrameSorter.Proofs.OfferedFiles
import FrameSorter.Proofs.Simulation

/-!
# Runs of the command line

A run loads a configuration and compiles it. Then it ends at once, because there is no configuration
(`run_of_unavailable`) or because validation errors are not accepted (`run_of_rejected`), or it reports
what would be written (`run_of_check`), or it writes (`run_of_write`). A build has the first case and the
last one (`build_of_unavailable`, `build_of_loaded`).

So the two agree, whatever the disk is and whatever state it is in (`run_agrees_with_build`): without
options a run is a build into the directory, and a check is a build into memory, which cannot be refused
and reports the same summary. To be strict makes a difference exactly if the configuration is there and
has validation errors, and these are then counted.
-/

set_option autoImplicit false
set_option relaxedAutoImplicit false

namespace FrameSorter

variable {σ : Type} {disk : Disk (StateM σ)} {state final : σ}

/-! ### The cases of a build -/

section Builds

variable {path : Path} {cause : LoadError} {config : Configuration}

/-- Without a configuration nothing is built. -/
theorem build_of_unavailable (sink : Sink (StateM σ))
    (hload : loadConfig disk path state = (.error cause, final)) :
    Pack.build disk path sink state = (.error (.configUnavailable cause), final) := by
  simp only [Pack.build, bind, StateT.bind, hload]
  rfl

/-- A configuration that is loaded is compiled and written, and what was compiled comes with the
summary. -/
theorem build_of_loaded (sink : Sink (StateM σ))
    (hload : loadConfig disk path state = (.ok config, final)) :
    Pack.build disk path sink state =
      Prod.map (fun outcome ↦ (outcome.map (compile config, ·)).mapError .persistenceFailure) id
        (Pack.write (compile config) config.pack sink final) := by
  simp only [Pack.build, Pack.compileAndWrite, bind, StateT.bind, hload]
  cases Pack.write (compile config) config.pack sink final with
  | mk outcome written => cases outcome <;> rfl

/-- A pack that is written is reported with its summary. -/
theorem eq_summary_of_write {compilation : Compilation} {options : PackOptions}
    {sink : Sink (StateM σ)} {summary : PackSummary}
    (hwrite : (Pack.write compilation options sink state).1 = .ok summary) :
    summary = Pack.summary compilation options := by
  cases hfiles : Pack.writeFiles sink (Pack.files compilation options) state with
  | mk outcome written =>
    rw [write_eq_of_writeFiles hfiles] at hwrite
    cases outcome with
    | error failure => cases hwrite
    | ok _ => exact (Except.ok.inj hwrite).symm

end Builds

namespace CommandLine

/-! ### The cases of a run -/

section Runs

variable {path outDir : Path} {check strict : Bool} {cause : LoadError} {config : Configuration}

/-- Without a configuration a run ends. -/
theorem run_of_unavailable (hload : loadConfig disk path state = (.error cause, final)) :
    run disk { config := path, outDir, check, strict } state =
      (.error (.pack (.configUnavailable cause)), final) := by
  simp only [run, bind, StateT.bind, hload]
  rfl

/-- A strict run ends at validation errors. -/
theorem run_of_rejected (hload : loadConfig disk path state = (.ok config, final))
    (herrors : (compile config).errors ≠ []) :
    run disk { config := path, outDir, check, strict := true } state =
      (.error (.strict (compile config).errors.length), final) := by
  have hrejected : (true && (compile config).hasErrors) = true := by
    simp [Compilation.hasErrors, herrors]
  simp only [run, bind, StateT.bind, hload, hrejected]
  rfl

/-- What is accepted passes the test for validation errors. -/
theorem not_rejected (haccepted : strict = true → (compile config).errors = []) :
    (strict && (compile config).hasErrors) = false := by
  cases strict with
  | false => rfl
  | true => simp [Compilation.hasErrors, haccepted]

/-- A check reports what would be written. -/
theorem run_of_check (hload : loadConfig disk path state = (.ok config, final))
    (haccepted : strict = true → (compile config).errors = []) :
    run disk { config := path, outDir, check := true, strict } state =
      (.ok (Pack.summary (compile config) config.pack), final) := by
  simp only [run, bind, StateT.bind, hload, not_rejected haccepted, StateT.run, write_memory]
  rfl

/-- Otherwise the pack is written into the directory. -/
theorem run_of_write (hload : loadConfig disk path state = (.ok config, final))
    (haccepted : strict = true → (compile config).errors = []) :
    run disk { config := path, outDir, check := false, strict } state =
      Prod.map (Except.mapError fun failure ↦ .pack (.persistenceFailure failure)) id
        (Pack.write (compile config) config.pack (disk.directorySink outDir) final) := by
  cases hwrite : Pack.write (compile config) config.pack (disk.directorySink outDir) final with
  | mk outcome written =>
    simp only [run, bind, StateT.bind, hload, not_rejected haccepted, Bool.false_eq_true,
      if_false, hwrite]
    cases outcome <;> rfl

end Runs

/-! ### Runs and builds -/

/-- What a run reports of a build: the summary, or the error. -/
def reported (outcome : Except PackError (Compilation × PackSummary)) :
    Except RunError PackSummary :=
  (outcome.map Prod.snd).mapError .pack

/-- How the runs with the same paths, but with other options, go together with each other and with a
build. -/
structure AgreesWithBuild (disk : Disk (StateM σ)) (path outDir : Path) (state : σ) : Prop where
  /-- Without options a run is a build into the directory. -/
  plain :
    run disk { config := path, outDir, check := false, strict := false } state =
      Prod.map reported id (Pack.build disk path (disk.directorySink outDir) state)
  /-- A check is a build into a memory sink that is empty at first. -/
  check :
    run disk { config := path, outDir, check := true, strict := false } state =
      Prod.map reported Prod.fst
        (Pack.build disk.onFirst path MemorySink.sink.onSecond (state, {}))
  /-- A check does not fail because a file is refused. -/
  check_not_refused : ∀ strict failure,
    (run disk { config := path, outDir, check := true, strict } state).1 ≠
      .error (.pack (.persistenceFailure failure))
  /-- A check reports the summary of the run without it, if that one succeeds. -/
  check_summary : ∀ strict summary,
    (run disk { config := path, outDir, check := false, strict } state).1 = .ok summary →
      (run disk { config := path, outDir, check := true, strict } state).1 = .ok summary
  /-- To be strict changes the result exactly if validation errors are found. -/
  strict_result : ∀ check,
    (run disk { config := path, outDir, check, strict := true } state).1 ≠
        (run disk { config := path, outDir, check, strict := false } state).1 ↔
      ∃ config, (loadConfig disk path state).1 = .ok config ∧
        (compile config).errors ≠ []
  /-- Otherwise it changes neither the result nor the state that is left. -/
  strict_same : ∀ check,
    (¬ ∃ config, (loadConfig disk path state).1 = .ok config ∧
        (compile config).errors ≠ []) →
      run disk { config := path, outDir, check, strict := true } state =
        run disk { config := path, outDir, check, strict := false } state
  /-- The validation errors are counted. -/
  strict_count : ∀ check config,
    (loadConfig disk path state).1 = .ok config → (compile config).errors ≠ [] →
      (run disk { config := path, outDir, check, strict := true } state).1 =
        .error (.strict (compile config).errors.length)

variable (disk : Disk (StateM σ)) (path outDir : Path) (state : σ)

/-- Without options a run is a build into the directory. -/
theorem run_eq_build :
    run disk { config := path, outDir, check := false, strict := false } state =
      Prod.map reported id (Pack.build disk path (disk.directorySink outDir) state) := by
  cases hload : loadConfig disk path state with
  | mk loaded final =>
    cases loaded with
    | error cause =>
      rw [run_of_unavailable hload, build_of_unavailable _ hload]
      rfl
    | ok config =>
      have haccepted : false = true → (compile config).errors = [] := nofun
      rw [run_of_write hload haccepted, build_of_loaded _ hload]
      cases Pack.write (compile config) config.pack (disk.directorySink outDir) final with
      | mk outcome written => cases outcome <;> rfl

/-- A check is a build into memory. -/
theorem run_check_eq_build :
    run disk { config := path, outDir, check := true, strict := false } state =
      Prod.map reported Prod.fst
        (Pack.build disk.onFirst path MemorySink.sink.onSecond (state, {})) := by
  have hbeside := loadConfig_onFirst disk path state ({} : MemorySink)
  cases hload : loadConfig disk path state with
  | mk loaded final =>
    rw [hload] at hbeside
    cases loaded with
    | error cause =>
      rw [run_of_unavailable hload, build_of_unavailable _ hbeside]
      rfl
    | ok config =>
      have haccepted : false = true → (compile config).errors = [] := nofun
      rw [run_of_check hload haccepted, build_of_loaded _ hbeside, write_onSecond, write_memory]
      rfl

/-- A check has no file refused, and it reports the summary of a run that writes. -/
theorem run_check_result (strict : Bool) :
    (∀ failure, (run disk { config := path, outDir, check := true, strict } state).1 ≠
        .error (.pack (.persistenceFailure failure))) ∧
      ∀ summary, (run disk { config := path, outDir, check := false, strict } state).1 = .ok summary →
        (run disk { config := path, outDir, check := true, strict } state).1 = .ok summary := by
  cases hload : loadConfig disk path state with
  | mk loaded final =>
    cases loaded with
    | error cause =>
      rw [run_of_unavailable hload, run_of_unavailable hload]
      exact ⟨nofun, nofun⟩
    | ok config =>
      by_cases haccepted : strict = true → (compile config).errors = []
      · rw [run_of_check hload haccepted, run_of_write hload haccepted]
        refine ⟨nofun, fun summary hrun ↦ ?_⟩
        cases hwrite : Pack.write (compile config) config.pack
            (disk.directorySink outDir) final with
        | mk outcome written =>
          rw [hwrite] at hrun
          cases outcome with
          | error failure => cases hrun
          | ok written =>
            obtain rfl := Except.ok.inj hrun
            rw [eq_summary_of_write (congrArg Prod.fst hwrite)]
      · obtain ⟨rfl, herrors⟩ := Classical.not_imp.mp haccepted
        rw [run_of_rejected hload herrors, run_of_rejected hload herrors]
        exact ⟨nofun, nofun⟩

/-- Without validation errors a strict run is as any other. -/
theorem run_strict_eq_of_accepted (check : Bool)
    (haccepted : ¬ ∃ config, (loadConfig disk path state).1 = .ok config ∧
      (compile config).errors ≠ []) :
    run disk { config := path, outDir, check, strict := true } state =
      run disk { config := path, outDir, check, strict := false } state := by
  cases hload : loadConfig disk path state with
  | mk loaded final =>
    cases loaded with
    | error cause => rw [run_of_unavailable hload, run_of_unavailable hload]
    | ok config =>
      have herrors : (compile config).errors = [] := by
        by_contra herrors
        exact haccepted ⟨config, by rw [hload], herrors⟩
      cases check with
      | true =>
        rw [run_of_check hload fun _ ↦ herrors, run_of_check hload fun _ ↦ herrors]
      | false =>
        rw [run_of_write hload fun _ ↦ herrors, run_of_write hload fun _ ↦ herrors]

/-- A run that accepts validation errors does not end because of them. -/
theorem run_lenient_ne (check : Bool) (count : Nat) :
    (run disk { config := path, outDir, check, strict := false } state).1 ≠ .error (.strict count) := by
  cases hload : loadConfig disk path state with
  | mk loaded final =>
    cases loaded with
    | error cause =>
      rw [run_of_unavailable hload]
      nofun
    | ok config =>
      have haccepted : false = true → (compile config).errors = [] := nofun
      cases check with
      | true =>
        rw [run_of_check hload haccepted]
        nofun
      | false =>
        rw [run_of_write hload haccepted]
        cases Pack.write (compile config) config.pack (disk.directorySink outDir) final with
        | mk outcome written => cases outcome <;> nofun

/-- A strict run counts the validation errors. -/
theorem run_strict_of_errors (check : Bool) {config : Configuration}
    (hload : (loadConfig disk path state).1 = .ok config)
    (herrors : (compile config).errors ≠ []) :
    (run disk { config := path, outDir, check, strict := true } state).1 =
      .error (.strict (compile config).errors.length) := by
  have hfinal : loadConfig disk path state =
      (.ok config, (loadConfig disk path state).2) := Prod.ext hload rfl
  rw [run_of_rejected hfinal herrors]

/-- The runs of the command line agree with a build, on every disk and in every state. -/
theorem run_agrees_with_build : AgreesWithBuild disk path outDir state where
  plain := run_eq_build disk path outDir state
  check := run_check_eq_build disk path outDir state
  check_not_refused strict := (run_check_result disk path outDir state strict).1
  check_summary strict := (run_check_result disk path outDir state strict).2
  strict_result check := by
    constructor
    · intro hdiffers
      by_contra haccepted
      exact hdiffers
        (congrArg Prod.fst (run_strict_eq_of_accepted disk path outDir state check haccepted))
    · rintro ⟨config, hload, herrors⟩ hsame
      rw [run_strict_of_errors disk path outDir state check hload herrors] at hsame
      exact run_lenient_ne disk path outDir state check _ hsame.symm
  strict_same check := run_strict_eq_of_accepted disk path outDir state check
  strict_count check _ := run_strict_of_errors disk path outDir state check

end CommandLine

end FrameSorter
