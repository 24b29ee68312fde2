import LiveComponent.Cache.Entry
import LiveComponent.Proofs.JsonText
import LiveComponent.Text.Utf8
import Mathlib

namespace LiveComponent

/-!
# The sizes of stored documents

A document gets no larger when entries are left out and the others are counted anew from the start.
-/

namespace Text

theorem byteSize_append
    (first second : Text) :
    byteSize (first ++ second) = byteSize first + byteSize second := by
  induction first with
  | nil =>
      simp [byteSize]
  | cons c rest inductionHypothesis =>
      rw [List.cons_append, byteSize_cons, byteSize_cons, inductionHypothesis, Nat.add_assoc]

/-- A larger number is not written in fewer bytes. -/
theorem byteSize_ofNat_le
    {small great : Nat}
    (ordered : small ≤ great) :
    byteSize (ofNat small) ≤ byteSize (ofNat great) := by
  have size (text : Text) (digits : ∀ c ∈ text, c.isDigit = true) :
      byteSize text = text.length := by
    induction text with
    | nil =>
        rfl
    | cons c rest inductionHypothesis =>
        have bound := (Char.isDigit_iff_toNat.mp (digits c List.mem_cons_self)).2
        have single : c.utf8Size = 1 :=
          Char.utf8Size_eq_one_iff.mpr (Nat.le_trans bound (by decide))
        rw [byteSize_cons, single,
          inductionHypothesis fun other member => digits other (List.mem_cons_of_mem c member),
          List.length_cons, Nat.add_comm]
  rw [size _ fun c => isDigit_of_mem_ofNat, size _ fun c => isDigit_of_mem_ofNat]
  have positive : 0 < (ofNat great).length := List.length_pos_iff.mpr (ofNat_ne_nil great)
  have bound := (Nat.length_toDigits_le_iff (by decide) positive).mp (Nat.le_refl _)
  exact (Nat.length_toDigits_le_iff (by decide) positive).mpr (Nat.lt_of_le_of_lt ordered bound)

/-- The size of parts with a mark of one byte between them. -/
theorem byteSize_joinWith
    (parts : List Text) :
    byteSize (joinWith [','] parts) = (parts.map fun part => byteSize part + 1).sum - 1 := by
  induction parts with
  | nil =>
      rfl
  | cons part parts inductionHypothesis =>
      cases parts with
      | nil =>
          simp [joinWith]
      | cons next parts =>
          have mark : byteSize [','] = 1 := rfl
          rw [joinWith, byteSize_append, byteSize_append, mark, inductionHypothesis]
          · simp
            omega
          · simp

end Text

namespace Json

theorem printAll_eq_map
    (items : List Json) :
    printAll items = items.map print := by
  induction items with
  | nil =>
      rfl
  | cons item items inductionHypothesis =>
      rw [printAll, inductionHypothesis, List.map_cons]

end Json

namespace CacheEntry

/-- The size of a written entry. -/
def writtenSize (entry : CacheEntry) : Nat :=
  Text.byteSize entry.toJson.print

/-- An entry that is counted earlier is not larger. -/
theorem writtenSize_le
    {entry : CacheEntry}
    {seq : Nat}
    (earlier : seq ≤ entry.seq) :
    writtenSize { entry with seq := seq } ≤ writtenSize entry := by
  have size := Text.byteSize_ofNat_le earlier
  simp only [writtenSize, toJson, Json.ofMembers, Json.ofNat, List.map_cons, List.map_nil, Json.print,
    Json.printMembers, Text.joinWith, Text.byteSize_cons, Text.byteSize_append]
  omega

/-- Entries that are counted from a start on. -/
def renumbered (start : Nat) : List CacheEntry → List CacheEntry
  | [] => []
  | entry :: rest => { entry with seq := start } :: renumbered (start + 1) rest

/-- The entries that are left out and those that are counted anew do not make a document larger. -/
theorem sum_writtenSize_renumbered_le
    {entries : List CacheEntry}
    (start : Nat)
    (ordered : entries.Pairwise fun first second => first.seq < second.seq)
    (late : ∀ entry ∈ entries, start ≤ entry.seq)
    (keep : CacheEntry → Bool) :
    ((renumbered start (entries.filter keep)).map fun entry => writtenSize entry + 1).sum ≤
      (entries.map fun entry => writtenSize entry + 1).sum := by
  induction entries generalizing start with
  | nil =>
      exact Nat.le_refl _
  | cons entry rest inductionHypothesis =>
      obtain ⟨first, others⟩ := List.pairwise_cons.mp ordered
      cases kept : keep entry with
      | false =>
          have later := inductionHypothesis start others fun other member =>
            late other (List.mem_cons_of_mem entry member)
          rw [List.filter_cons_of_neg (by simp [kept]), List.map_cons, List.sum_cons]
          omega
      | true =>
          have earlier := late entry List.mem_cons_self
          have size := writtenSize_le earlier
          have later := inductionHypothesis (start + 1) others fun other member =>
            Nat.lt_of_le_of_lt earlier (first other member)
          rw [List.filter_cons_of_pos kept, renumbered, List.map_cons, List.sum_cons, List.map_cons,
            List.sum_cons]
          omega

end CacheEntry

namespace CacheDocument

/-- A document is not larger than another one of the same version with entries of the same size or
more. -/
theorem byteSize_toText_le
    {version : Text}
    {few many : List CacheEntry}
    (size :
      (few.map fun entry => entry.writtenSize + 1).sum ≤
        (many.map fun entry => entry.writtenSize + 1).sum) :
    Text.byteSize (toText ⟨version, few⟩) ≤ Text.byteSize (toText ⟨version, many⟩) := by
  have entries (entries : List CacheEntry) :
      Text.byteSize (Text.joinWith [','] (Json.printAll (entries.map CacheEntry.toJson))) =
        (entries.map fun entry => entry.writtenSize + 1).sum - 1 := by
    rw [Text.byteSize_joinWith, Json.printAll_eq_map, List.map_map, List.map_map]
    rfl
  simp only [toText, toJson, Json.ofMembers, List.map_cons, List.map_nil, Json.print,
    Json.printMembers, Text.joinWith, Text.byteSize_cons, Text.byteSize_append, entries]
  omega

end CacheDocument

end LiveComponent
