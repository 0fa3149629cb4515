import FrameSorter.Proofs.FunctionNames

/-!
# The files that a sink is offered

A sink may do anything with a file, depending on all that it was offered before, and refuse it. So
what becomes of a list of files is told by the sink alone: either it takes them all (`Sink.Takes`), or
there is a first one that it refuses (`Sink.RefusesAt`), and one of the two is the case
(`takes_or_refusesAt`). A pack is written by offering its files in order up to the first refusal
(`comesTo_of_takes`, `comesTo_of_refusesAt`), and the same is seen by a sink that lists what it is
offered (`Sink.listing`). The files are those of the functions, the two tags and the description, and
their number is counted from the groups and the items (`length_files_compile`). Together this is
`write_offers_files_in_order`.
-/

set_option autoImplicit false
set_option relaxedAutoImplicit false

namespace FrameSorter

variable {σ : Type} {sink : Sink (StateM σ)} {start before final : σ}
variable {files taken : List (Path × String)} {failure : WriteFailure} {index : Nat}

/-! ### What a sink does with a list of files -/

/-- The sink takes files one after the other, and the last one leaves it in a state. -/
inductive Sink.Takes (sink : Sink (StateM σ)) : σ → List (Path × String) → σ → Prop
  | nil (state : σ) : Takes sink state [] state
  | cons {state next final : σ} {path : Path} {content : String} {rest : List (Path × String)}
      (hwrite : sink.write path content state = (.ok (), next)) (hrest : Takes sink next rest final) :
      Takes sink state ((path, content) :: rest) final

/-- The sink takes the files before an index and refuses the one there, which leaves it in a state. -/
def Sink.RefusesAt (sink : Sink (StateM σ)) (start : σ) (files : List (Path × String)) (index : Nat)
    (failure : WriteFailure) (final : σ) : Prop :=
  ∃ content before, files[index]? = some (failure.path, content) ∧
    sink.Takes start (files.take index) before ∧
      sink.write failure.path content before = (.error failure.cause, final)

/-- A sink takes all files or refuses a first one. -/
theorem takes_or_refusesAt (sink : Sink (StateM σ)) (start : σ) (files : List (Path × String)) :
    (∃ final, sink.Takes start files final) ∨
      ∃ index failure final, sink.RefusesAt start files index failure final := by
  induction files generalizing start with
  | nil => exact Or.inl ⟨start, .nil start⟩
  | cons file files ih =>
    obtain ⟨path, content⟩ := file
    cases hwrite : sink.write path content start with
    | mk answer next =>
      cases answer with
      | error cause =>
        exact Or.inr ⟨0, { path, cause }, next, content, start, rfl, .nil start, hwrite⟩
      | ok _ =>
        rcases ih next with
          ⟨final, htakes⟩ | ⟨index, failure, final, other, before, hfile, htakes, hrefused⟩
        · exact Or.inl ⟨final, .cons hwrite htakes⟩
        · exact Or.inr ⟨index + 1, failure, final, other, before, hfile, .cons hwrite htakes, hrefused⟩

/-! ### Lists of files -/

/-- Behind files that the sink takes, writing goes on with the rest. -/
theorem writeFiles_append_of_takes (htakes : sink.Takes start taken before)
    (rest : List (Path × String)) :
    Pack.writeFiles sink (taken ++ rest) start = Pack.writeFiles sink rest before := by
  induction htakes with
  | nil state => rfl
  | cons hwrite _ ih =>
    simp only [List.cons_append, Pack.writeFiles, bind, StateT.bind, hwrite]
    exact ih

/-- Files that the sink takes are written. -/
theorem writeFiles_of_takes (htakes : sink.Takes start files final) :
    Pack.writeFiles sink files start = (.ok (), final) := by
  rw [← List.append_nil files, writeFiles_append_of_takes htakes]
  rfl

/-- Writing stops at the file that the sink refuses. -/
theorem writeFiles_of_refusesAt (hrefuses : sink.RefusesAt start files index failure final) :
    Pack.writeFiles sink files start = (.error failure, final) := by
  obtain ⟨content, before, hfile, htakes, hrefused⟩ := hrefuses
  obtain ⟨hindex, hfile⟩ := List.getElem?_eq_some_iff.mp hfile
  rw [← List.take_append_drop index files, List.drop_eq_getElem_cons hindex, hfile,
    writeFiles_append_of_takes htakes]
  simp only [Pack.writeFiles, bind, StateT.bind, hrefused]
  rfl

/-! ### Sinks that list what they are offered -/

/-- A sink with the list of the files that it was offered, whether it took them or not. -/
def Sink.listing (sink : Sink (StateM σ)) : Sink (StateM (σ × List (Path × String))) where
  write path content := fun (state, offered) ↦
    let (answer, state) := sink.write path content state
    (answer, (state, offered ++ [(path, content)]))

/-- One offered file is listed. -/
theorem listing_write {path : Path} {content : String} {answer : Except IoFailure Unit}
    (hwrite : sink.write path content start = (answer, final)) (offered : List (Path × String)) :
    sink.listing.write path content (start, offered) =
      (answer, (final, offered ++ [(path, content)])) := by
  simp only [Sink.listing, hwrite]

/-- Files that a sink takes are listed. -/
theorem Sink.Takes.listing (htakes : sink.Takes start taken final) (offered : List (Path × String)) :
    sink.listing.Takes (start, offered) taken (final, offered ++ taken) := by
  induction htakes generalizing offered with
  | nil state =>
    rw [List.append_nil]
    exact .nil _
  | @cons state next final path content rest hwrite _ ih =>
    have hrest := ih (offered ++ [(path, content)])
    rw [List.append_assoc, List.singleton_append] at hrest
    exact .cons (listing_write hwrite offered) hrest

/-- The refused file is the last one that is listed. -/
theorem Sink.RefusesAt.listing (hrefuses : sink.RefusesAt start files index failure final) :
    sink.listing.RefusesAt (start, []) files index failure (final, files.take (index + 1)) := by
  obtain ⟨content, before, hfile, htakes, hrefused⟩ := hrefuses
  refine ⟨content, (before, files.take index), hfile, htakes.listing [], ?_⟩
  rw [List.take_add_one, hfile]
  exact listing_write hrefused _

/-! ### Packs -/

/-- What is reported of a pack that is written. -/
def Pack.summary (compilation : Compilation) (options : PackOptions) : PackSummary where
  filesWritten := (Pack.files compilation options).length
  stats := compilation.stats
  errors := compilation.errors.length
  warnings := compilation.warnings.length

variable {compilation : Compilation} {options : PackOptions}

/-- A pack is written as its files are. -/
theorem write_eq_of_writeFiles {outcome : Except WriteFailure Unit}
    (hfiles : Pack.writeFiles sink (Pack.files compilation options) start = (outcome, final)) :
    Pack.write compilation options sink start =
      (outcome.map fun _ ↦ Pack.summary compilation options, final) := by
  simp only [Pack.write, bind, StateT.bind, hfiles]
  cases outcome <;> rfl

/-- Writing a pack to a sink comes to an outcome and leaves the sink in a state, after it was offered
some files and no others. -/
structure Pack.ComesTo (compilation : Compilation) (options : PackOptions) (sink : Sink (StateM σ))
    (start : σ) (outcome : Except WriteFailure PackSummary) (final : σ)
    (offered : List (Path × String)) : Prop where
  write : Pack.write compilation options sink start = (outcome, final)
  listing : Pack.write compilation options sink.listing (start, []) = (outcome, (final, offered))

/-- A pack whose files are all taken is written. -/
theorem comesTo_of_takes (htakes : sink.Takes start (Pack.files compilation options) final) :
    Pack.ComesTo compilation options sink start (.ok (Pack.summary compilation options)) final
      (Pack.files compilation options) where
  write := write_eq_of_writeFiles (writeFiles_of_takes htakes)
  listing := write_eq_of_writeFiles (writeFiles_of_takes (htakes.listing []))

/-- A pack of which a file is refused is written up to that file. -/
theorem comesTo_of_refusesAt
    (hrefuses : sink.RefusesAt start (Pack.files compilation options) index failure final) :
    Pack.ComesTo compilation options sink start (.error failure) final
      ((Pack.files compilation options).take (index + 1)) where
  write := write_eq_of_writeFiles (writeFiles_of_refusesAt hrefuses)
  listing := write_eq_of_writeFiles (writeFiles_of_refusesAt hrefuses.listing)

/-- The files of a compiled pack are one for each item and for each group with a function, and seven
others. -/
theorem length_files_compile (config : Configuration) (options : PackOptions) :
    (Pack.files (compile config) options).length =
      (compile config).stats.totalItems + ((compile config).artifactsOf .group).length + 7 := by
  have hroutines : (compile config).routines.length =
      (emittedGroups config.groups).length +
        (emittedItems (itemsOf (emittedGroups config.groups))).length := by
    have hlength := (names_routines_perm config).length_eq
    simpa [Configuration.groupFunctionNames, Configuration.itemFunctionNames] using hlength
  rw [stats_compile, artifactsOf_group_compile, List.length_map]
  simp only [Pack.files, Pack.functions, Compilation.artifacts, lifecycleArtifacts, Pack.tags,
    List.length_append, List.length_map, List.length_cons, List.length_nil, hroutines]
  omega

/-- A pack is one list of files: the functions with the dispatcher first, those of the lifecycle, the
two tags and the description. Whatever the sink is, it is offered these files in order, up to the first
that it refuses, whose path and cause are reported; without a refusal it is offered all of them, and all
are counted. For a compiled configuration they are as many as its items and its groups with functions,
and seven more. -/
theorem write_offers_files_in_order (sink : Sink (StateM σ)) (start : σ) (compilation : Compilation)
    (options : PackOptions) :
    Pack.files compilation options =
        (compilation.dispatcher :: compilation.routines).map
          (fun routine ↦ (Pack.functionPath options routine.name, routine.content)) ++
        [(Pack.functionPath options "init", initScript options),
         (Pack.functionPath options "tick", tickScript options),
         (Pack.functionPath options "sort", sortScript options),
         (Pack.tagPath options "load",
            Pack.tagDocument [resourceLocation options.packNamespace "init"]),
         (Pack.tagPath options "tick",
            Pack.tagDocument [resourceLocation options.packNamespace "tick"]),
         (Pack.metadataPath, Pack.metadataDocument options)] ∧
      ((∃ final, sink.Takes start (Pack.files compilation options) final) ∨
        ∃ index failure final,
          sink.RefusesAt start (Pack.files compilation options) index failure final) ∧
      (∀ index failure final,
        sink.RefusesAt start (Pack.files compilation options) index failure final →
          Pack.ComesTo compilation options sink start (.error failure) final
            ((Pack.files compilation options).take (index + 1))) ∧
      (∀ final, sink.Takes start (Pack.files compilation options) final →
        Pack.ComesTo compilation options sink start
          (.ok
            { filesWritten := (Pack.files compilation options).length
              stats := compilation.stats
              errors := compilation.errors.length
              warnings := compilation.warnings.length })
          final (Pack.files compilation options)) ∧
      ∀ config, compilation = compile config →
        (Pack.files compilation options).length =
          compilation.stats.totalItems + (compilation.artifactsOf .group).length + 7 := by
  refine ⟨?_, takes_or_refusesAt sink start _, fun _ _ _ ↦ comesTo_of_refusesAt,
    fun _ ↦ comesTo_of_takes, ?_⟩
  · rw [Pack.files, Pack.functions, Compilation.artifacts, List.map_append, List.append_assoc,
      List.append_assoc]
    rfl
  · rintro config rfl
    exact length_files_compile config options

/-- One group of two items, which also repeats the name of the first and falls back to a group that is not
declared. -/
def leaningShelf : Configuration where
  groups :=
    [{ name := "Ores", items := ["minecraft:coal", "minecraft:iron_ore", "mod:coal"]
       itemFrame := some "minecraft:coal", fallback := some "Rest" }]

/-- A memory sink with room for two files refuses the third one of the pack, which is the function of the
first item, and one without a limit takes all ten. -/
theorem write_offers_files_leaningShelf :
    (∃ final,
      (MemorySink.sink.limited .notFound).RefusesAt (2, {}) (Pack.files (compile leaningShelf) {}) 2
          { path := Pack.functionPath {} "item_coal", cause := .notFound } final ∧
        Pack.ComesTo (compile leaningShelf) {} (MemorySink.sink.limited .notFound) (2, {})
          (.error { path := Pack.functionPath {} "item_coal", cause := .notFound }) final
          ((Pack.files (compile leaningShelf) {}).take 3)) ∧
      ∃ final,
        MemorySink.sink.Takes {} (Pack.files (compile leaningShelf) {}) final ∧
          Pack.ComesTo (compile leaningShelf) {} MemorySink.sink {}
            (.ok { filesWritten := 10, stats := ⟨2, 1⟩, errors := 1, warnings := 1 }) final
            (Pack.files (compile leaningShelf) {}) := by
  have hrefuses : ∃ final,
      (MemorySink.sink.limited .notFound).RefusesAt (2, {}) (Pack.files (compile leaningShelf) {}) 2
        { path := Pack.functionPath {} "item_coal", cause := .notFound } final :=
    ⟨_, _, _, rfl, .cons rfl (.cons rfl (.nil _)), rfl⟩
  have htakes : ∃ final, MemorySink.sink.Takes {} (Pack.files (compile leaningShelf) {}) final :=
    ⟨_, .cons rfl (.cons rfl (.cons rfl (.cons rfl (.cons rfl
      (.cons rfl (.cons rfl (.cons rfl (.cons rfl (.cons rfl (.nil _))))))))))⟩
  obtain ⟨last, hrefuses⟩ := hrefuses
  obtain ⟨final, htakes⟩ := htakes
  exact ⟨⟨last, hrefuses, (write_offers_files_in_order _ _ _ _).2.2.1 _ _ _ hrefuses⟩,
    final, htakes, (write_offers_files_in_order _ _ _ _).2.2.2.1 _ htakes⟩

end FrameSorter
