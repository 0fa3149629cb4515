import FrameSorter.Pack.Writing

/-!
# The files that a sink takes

Every function of a pack is among its files (`function_mem_files`). `Sink.recording` is a sink beside
which the files are listed that it took. A list of files that is written without a refusal has been
taken as a whole and in order (`taken_of_writeFiles`), so a pack that is written has all its files in
the sink (`taken_of_write`).
-/

set_option autoImplicit false
set_option relaxedAutoImplicit false

namespace FrameSorter

/-- Each function of a pack has a file, at the path of its name. -/
theorem function_mem_files {compilation : Compilation} {options : PackOptions} {function : Artifact}
    (hfunction : function ∈ Pack.functions compilation options) :
    (Pack.functionPath options function.name, function.content) ∈ Pack.files compilation options := by
  rw [Pack.files, List.append_assoc]
  exact List.mem_append_left _ (List.mem_map.mpr ⟨function, hfunction, rfl⟩)

variable {σ : Type} {sink : Sink (StateM σ)}

/-- A sink with the list of the files that it took. -/
def Sink.recording (sink : Sink (StateM σ)) : Sink (StateM (σ × List (Path × String))) where
  write path content := fun (state, taken) ↦
    match sink.write path content state with
    | (.ok (), state) => (.ok (), (state, taken ++ [(path, content)]))
    | (.error refusal, state) => (.error refusal, (state, taken))

/-- A file that is not refused is added to the list. -/
theorem recording_write_ok {path : Path} {content : String} {start final : σ × List (Path × String)}
    (hwrite : sink.recording.write path content start = (.ok (), final)) :
    final.2 = start.2 ++ [(path, content)] := by
  obtain ⟨state, taken⟩ := start
  simp only [Sink.recording] at hwrite
  split at hwrite
  · cases hwrite
    rfl
  · cases hwrite

/-- Files that are written without a refusal are taken in order. -/
theorem taken_of_writeFiles {files : List (Path × String)} {start final : σ × List (Path × String)}
    (hwrite : Pack.writeFiles sink.recording files start = (.ok (), final)) :
    final.2 = start.2 ++ files := by
  induction files generalizing start with
  | nil =>
    cases hwrite
    exact (List.append_nil _).symm
  | cons file rest ih =>
    obtain ⟨path, content⟩ := file
    cases hfile : sink.recording.write path content start with
    | mk outcome next =>
      simp only [Pack.writeFiles, bind, StateT.bind, hfile] at hwrite
      cases outcome with
      | error refusal => cases hwrite
      | ok taken =>
        rw [ih hwrite, recording_write_ok hfile, List.append_assoc]
        rfl

/-- A pack that is written has all its files taken. -/
theorem taken_of_write {compilation : Compilation} {options : PackOptions} {state : σ}
    {summary : PackSummary} {final : σ × List (Path × String)}
    (hwrite : Pack.write compilation options sink.recording (state, []) = (.ok summary, final)) :
    final.2 = Pack.files compilation options := by
  cases hfiles : Pack.writeFiles sink.recording (Pack.files compilation options) (state, []) with
  | mk outcome next =>
    simp only [Pack.write, bind, StateT.bind, hfiles] at hwrite
    cases outcome with
    | error failure => cases hwrite
    | ok taken =>
      cases hwrite
      exact taken_of_writeFiles hfiles

end FrameSorter
