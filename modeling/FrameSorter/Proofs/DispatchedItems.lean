import FrameSorter.Proofs.CompiledArtifacts
import FrameSorter.Proofs.QuotedTexts

/-!
# The dispatch line of an item

A dispatch line starts with a guard that names the item it is for, in quotation marks (`dispatchGuard`).
A quoted text is never the beginning of another one, so the line of an item starts with the guard of no
other item, whatever characters the items have (`isGuardedBy_dispatchLine_iff`). No item is emitted twice.
Hence every emitted item has one line among those that the compiler appends to the dispatcher, and what
is not emitted has none (`item_has_one_dispatchLine`).
-/

set_option autoImplicit false
set_option relaxedAutoImplicit false

namespace FrameSorter

/-- What the dispatch line of an item starts with, up to the command that it runs. -/
def dispatchGuard (item : String) : String :=
  dispatchLinePrefix ++ "nbt=\x7bItem:\x7bid:" ++ Quoted.quote item '"' ++ "\x7d\x7d] run "

/-- Whether a line starts with the guard of an item. -/
def isGuardedBy (item line : String) : Bool :=
  (dispatchGuard item).toList.isPrefixOf line.toList

/-- A dispatch line is the guard of its item and the command. -/
theorem dispatchLine_eq_guard (item call : String) :
    dispatchLine item call = dispatchGuard item ++ call ++ "\n" :=
  rfl

/-- The guard of an item stands in front of the dispatch lines of that item only. -/
theorem isGuardedBy_dispatchLine_iff {first second call : String} :
    isGuardedBy first (dispatchLine second call) ↔ first = second := by
  -- The guards of two items may differ from the quoted item on, so they are taken apart in front of it.
  have hsplit (item : String) (rest : List Char) : (dispatchGuard item).toList ++ rest =
      (dispatchLinePrefix ++ "nbt=\x7bItem:\x7bid:").toList ++
        ((Quoted.quote item '"').toList ++ ("\x7d\x7d] run ".toList ++ rest)) := by
    unfold dispatchGuard
    simp only [String.toList_append, List.append_assoc]
  rw [isGuardedBy, List.isPrefixOf_iff_prefix, dispatchLine_eq_guard, String.append_assoc,
    @String.toList_append (dispatchGuard second)]
  constructor
  · rintro ⟨rest, hrest⟩
    rw [hsplit, hsplit] at hrest
    have hquoted := List.append_cancel_left hrest
    exact ((Quoted.quote_append_inj (by decide)).mp hquoted).1
  · rintro rfl
    exact List.prefix_append _ _

/-- No item is emitted twice. -/
theorem nodup_emittedItems (items : List String) : (emittedItems items).Nodup :=
  (nodup_itemName_emittedItems items).of_map itemName

/-- The lines that the compiler appends to the header of the dispatcher. -/
def appendedLines (config : Configuration) : List String :=
  (Ledger.ofGroups config config.groups).dispatchLines

/-- The appended lines are those of the emitted items. -/
theorem appendedLines_eq (config : Configuration) :
    appendedLines config =
      (emittedItems (itemsOf (emittedGroups config.groups))).map config.itemDispatchLine :=
  (ledgerReads_ofGroups config config.groups).dispatchLines

/-- Among the lines that are appended to the header of the dispatcher, exactly one starts with the guard
of an item that is emitted, and it runs the function of the item; none starts with the guard of any other
text. The lines are counted as they are appended, so a line feed in a configured text divides none. -/
theorem item_has_one_dispatchLine (config : Configuration) (item : String) :
    (compile config).dispatcher.content =
        dispatcherHeader config ++ String.join (appendedLines config) ∧
      (appendedLines config).filter (isGuardedBy item) =
        if item ∈ emittedItems (itemsOf (emittedGroups config.groups)) then
          [dispatchGuard item ++
            functionCall config.pack.packNamespace (itemArtifactName (itemName item)) ++ "\n"]
        else [] := by
  refine ⟨rfl, ?_⟩
  have hguard : isGuardedBy item ∘ config.itemDispatchLine = (· == item) := by
    funext other
    rw [Function.comp_apply, Configuration.itemDispatchLine, Bool.eq_iff_iff,
      isGuardedBy_dispatchLine_iff, beq_iff_eq]
    exact eq_comm
  have hline : config.itemDispatchLine item = dispatchGuard item ++
      functionCall config.pack.packNamespace (itemArtifactName (itemName item)) ++ "\n" := by
    rw [Configuration.itemDispatchLine, dispatchLine_eq_guard]
  rw [appendedLines_eq, List.filter_map, hguard, List.filter_beq, ← hline]
  split
  · rename_i hitem
    rw [List.count_eq_one_of_mem (nodup_emittedItems _) hitem, List.replicate_one, List.map_singleton]
  · rename_i hitem
    rw [List.count_eq_zero_of_not_mem hitem, List.replicate_zero, List.map_nil]

end FrameSorter
