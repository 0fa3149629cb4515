import Mathlib.Tactic.SplitIfs
import FrameSorter.FileSystem
import FrameSorter.Proofs.JoinedPaths

/-!
# Locations of paths

Without links, where a path leads is a matter of its segments alone (`resolve`): a file system decides
whether the path leads anywhere, and if it does, it is there (`walk_eq_resolve`,
`locateFile_eq_resolve`). Two dots can lead above the place where a path starts. A path stays below it
if no beginning of the path has more two dots than names (`Path.StaysBelow`), and then its location is
below that of the directory that it is joined to (`prefix_resolve_join`).
-/

set_option autoImplicit false
set_option relaxedAutoImplicit false

namespace FrameSorter

/-! ### Resolution by segments -/

/-- The location that one segment leads to. -/
def resolveSegment (here : Location) (segment : String) : Location :=
  if segment = Path.rootMark then []
  else if segment = "." then here
  else if segment = ".." then here.dropLast
  else here ++ [segment]

/-- The location that segments lead to. -/
def resolve (here : Location) (segments : List String) : Location :=
  segments.foldl resolveSegment here

/-- Segments that stand behind others are resolved from where those lead. -/
theorem resolve_append (here : Location) (first second : List String) :
    resolve here (first ++ second) = resolve (resolve here first) second :=
  List.foldl_append

/-- Segments that neither start at the root nor lead up lead to what they name. -/
theorem resolve_eq_append {segments : List String} (hroot : Path.rootMark ∉ segments)
    (hdots : ".." ∉ segments) (here : Location) :
    resolve here segments = here ++ segments.filter (· != ".") := by
  induction segments generalizing here with
  | nil => exact (List.append_nil here).symm
  | cons segment rest ih =>
    rw [List.mem_cons, not_or] at hroot hdots
    have hstep : resolve here (segment :: rest) = resolve (resolveSegment here segment) rest := rfl
    rw [hstep, ih hroot.2 hdots.2, resolveSegment, if_neg (Ne.symm hroot.1), if_neg (Ne.symm hdots.1)]
    by_cases hdot : segment = "."
    · rw [if_pos hdot, List.filter_cons_of_neg (by simp [hdot])]
    · rw [if_neg hdot, List.filter_cons_of_pos (by simpa using hdot), List.append_assoc,
        List.singleton_append]

namespace FileSystem

variable {files : FileSystem} {here location : Location}

/-- Where a segment can be followed, it leads to its location. -/
theorem follow_eq_resolveSegment {segment : String} (hfollow : files.follow here segment = .ok location) :
    location = resolveSegment here segment := by
  unfold follow at hfollow
  unfold resolveSegment
  split_ifs at hfollow ⊢
  · exact (Except.ok.inj hfollow).symm
  · exact (Except.ok.inj hfollow).symm
  · exact (Except.ok.inj hfollow).symm
  · split at hfollow
    · exact (Except.ok.inj hfollow).symm
    · cases hfollow
  · split at hfollow <;> cases hfollow

/-- Where segments can be walked, they lead to their location. -/
theorem walk_eq_resolve {segments : List String} (hwalk : files.walk here segments = .ok location) :
    location = resolve here segments := by
  induction segments generalizing here with
  | nil => exact (Except.ok.inj hwalk).symm
  | cons segment rest ih =>
    rw [walk] at hwalk
    cases hfollow : files.follow here segment with
    | error failure =>
      rw [hfollow] at hwalk
      cases hwalk
    | ok next =>
      simp only [hfollow] at hwalk
      split at hwalk
      · cases hwalk
      · cases hwalk
      · rw [ih hwalk, follow_eq_resolveSegment hfollow]
        rfl

/-- Where a path can be written to, it names the file at its location. -/
theorem locateFile_eq_resolve {path : Path} (hlocate : files.locateFile path = .ok location) :
    location = resolve files.workingDirectory path.segments := by
  unfold locateFile at hlocate
  cases hcheck : checkText path with
  | error failure =>
    rw [hcheck] at hlocate
    cases hlocate
  | ok checked =>
    simp only [hcheck, bind, Except.bind] at hlocate
    split at hlocate
    · cases hlocate
    · rename_i last hlast
      obtain ⟨before, hsegments⟩ := List.getLast?_eq_some_iff.mp hlast
      rw [hsegments, List.dropLast_concat] at hlocate
      cases hwalk : files.walk files.workingDirectory before with
      | error failure =>
        rw [hwalk] at hlocate
        cases hlocate
      | ok here =>
        simp only [hwalk] at hlocate
        split at hlocate
        · cases hlocate
        · rw [hsegments, resolve_append, ← walk_eq_resolve hwalk]
          exact follow_eq_resolveSegment hlocate

end FileSystem

/-! ### Paths that stay below -/

/-- How many directories below the start some segments lead, if they never lead above it. -/
def depthAfter? (depth : Nat) : List String → Option Nat
  | [] => some depth
  | segment :: rest =>
    if segment = Path.rootMark then none
    else if segment = "." then depthAfter? depth rest
    else if segment = ".." then
      if depth = 0 then none else depthAfter? (depth - 1) rest
    else depthAfter? (depth + 1) rest

/-- Segments behind others start at the depth that those lead to. -/
theorem depthAfter?_append (depth : Nat) (first second : List String) :
    depthAfter? depth (first ++ second) =
      (depthAfter? depth first).bind (depthAfter? · second) := by
  induction first generalizing depth with
  | nil => rfl
  | cons segment rest ih =>
    rw [List.cons_append, depthAfter?, depthAfter?]
    split_ifs
    · rfl
    · exact ih depth
    · rfl
    · exact ih (depth - 1)
    · exact ih (depth + 1)

/-- Segments that never lead above the start lead to a location below it. -/
theorem resolve_of_depthAfter? (start below : Location) {segments : List String} {depth : Nat}
    (hdepth : depthAfter? below.length segments = some depth) :
    ∃ final, final.length = depth ∧ resolve (start ++ below) segments = start ++ final := by
  -- `below` is where the segments so far have led, and its length is the depth.
  induction segments generalizing below with
  | nil => exact ⟨below, Option.some.inj hdepth, rfl⟩
  | cons segment rest ih =>
    have hstep : resolve (start ++ below) (segment :: rest) =
        resolve (resolveSegment (start ++ below) segment) rest := rfl
    rw [depthAfter?] at hdepth
    rw [hstep, resolveSegment]
    split_ifs at hdepth ⊢ with hroot hdot hdots hnone
    · exact ih below hdepth
    · have hbelow : below ≠ [] := fun hnil ↦ hnone (congrArg List.length hnil)
      rw [List.dropLast_append_of_ne_nil hbelow]
      exact ih below.dropLast (by rw [List.length_dropLast, hdepth])
    · rw [List.append_assoc]
      exact ih (below ++ [segment]) (by rw [List.length_append, List.length_singleton, hdepth])

/-- A path is relative and never leads above the place where it starts. -/
def Path.StaysBelow (path : Path) : Prop :=
  path.isAbsolute = false ∧ (depthAfter? 0 path.pieces).isSome

instance (path : Path) : Decidable path.StaysBelow :=
  inferInstanceAs (Decidable (_ ∧ _))

/-- A path that stays below leads to a location below the directory that it is joined to. -/
theorem prefix_resolve_join {root path : Path} (hbelow : path.StaysBelow) (here : Location) :
    resolve here root.segments <+: resolve here (root.join path).segments := by
  obtain ⟨hrelative, hdepth⟩ := hbelow
  obtain ⟨depth, hdepth⟩ := Option.isSome_iff_exists.mp hdepth
  obtain ⟨final, -, hfinal⟩ :=
    resolve_of_depthAfter? (resolve here root.segments) [] hdepth
  rw [Path.segments_join hrelative, resolve_append]
  exact ⟨final, by rw [← hfinal, List.append_nil]⟩

end FrameSorter
