import ControlPlane.Proofs.Text.Utf8
import ControlPlane.Text.Sorted
import Mathlib.Tactic.SplitIfs
-- Texts stand in the order of their octets, and what is sorted is sorted by them.
namespace ControlPlane

namespace Utf8

theorem octet_lt_iff {m n : Nat} (one : m < 256) (two : n < 256) :
    UInt8.ofNat m < UInt8.ofNat n ↔ m < n := by
  rw [UInt8.lt_iff_toNat_lt, toNat_ofNat_octet one, toNat_ofNat_octet two]

theorem octet_inj {m n : Nat} (one : m < 256) (two : n < 256) :
    UInt8.ofNat m = UInt8.ofNat n ↔ m = n := by
  rw [← UInt8.toNat_inj, toNat_ofNat_octet one, toNat_ofNat_octet two]

-- A longer form begins with a greater octet, and forms of one length are the digits of
-- their numbers.
theorem encodeChar_lt {c d : Char} (less : c < d) (x y : Bytes) :
    encodeChar c ++ x < encodeChar d ++ y := by
  have numbers : c.toNat < d.toNat := less
  have first := toNat_range c
  have second := toNat_range d
  unfold encodeChar
  dsimp only
  generalize c.toNat = m at numbers first ⊢
  generalize d.toNat = n at numbers second ⊢
  split_ifs <;> simp only [List.cons_append, List.nil_append, List.cons_lt_cons_iff] <;>
    simp (disch := omega) only [octet_lt_iff, octet_inj] <;> omega

theorem encode_lt {a b : List Char} (less : a < b) : encode a < encode b := by
  induction a generalizing b with
  | nil =>
    cases b with
    | nil => exact absurd less (List.lt_irrefl [])
    | cons d rest =>
      have some : encodeChar d ≠ [] := encodeChar_ne_nil d
      obtain ⟨first, others, octets⟩ := List.exists_cons_of_ne_nil some
      rw [encode_cons, octets]
      exact List.nil_lt_cons ..
  | cons c front ih =>
    cases b with
    | nil => exact absurd less (List.not_lt_nil _)
    | cons d rest =>
      rw [encode_cons, encode_cons]
      rcases List.cons_lt_cons_iff.1 less with first | ⟨same, later⟩
      · exact encodeChar_lt first _ _
      · rw [same]
        exact List.append_left_lt (ih later)

end Utf8

theorem bytesOf_lt_iff {a b : String} : bytesOf a < bytesOf b ↔ a < b := by
  constructor
  · intro less
    apply Classical.byContradiction
    intro other
    rcases Std.le_iff_lt_or_eq.1 (Std.not_lt.1 other) with greater | same
    · exact List.lt_asymm less (Utf8.encode_lt greater)
    · rw [same] at less
      exact List.lt_irrefl _ less
  · exact fun less => Utf8.encode_lt less

theorem mem_insertSorted {text t : String} {l : List String} :
    text ∈ insertSorted t l ↔ text = t ∨ text ∈ l := by
  induction l with
  | nil => simp [insertSorted]
  | cons head rest ih =>
    unfold insertSorted
    split
    · simp only [List.mem_cons, ih, or_left_comm]
    · simp

theorem mem_sortTexts {texts : List String} {text : String} :
    text ∈ sortTexts texts ↔ text ∈ texts := by
  unfold sortTexts
  induction texts with
  | nil => simp
  | cons t texts ih => simp [mem_insertSorted, ih]

theorem insertSorted_increasing {t : String} {l : List String} (new : t ∉ l)
    (sorted : l.Pairwise (· < ·)) : (insertSorted t l).Pairwise (· < ·) := by
  induction l with
  | nil => simp [insertSorted]
  | cons head rest ih =>
    obtain ⟨above, later⟩ := List.pairwise_cons.1 sorted
    rw [List.mem_cons, not_or] at new
    unfold insertSorted
    split
    · rename_i less
      refine List.pairwise_cons.2 ⟨fun text member => ?_, ih new.2 later⟩
      rcases mem_insertSorted.1 member with rfl | old
      · exact less
      · exact above text old
    · rename_i other
      have less : t < head := Std.lt_of_le_of_ne (Std.not_lt.1 other) new.1
      refine List.pairwise_cons.2 ⟨fun text member => ?_, sorted⟩
      rcases List.mem_cons.1 member with rfl | old
      · exact less
      · exact Std.lt_trans less (above text old)

theorem sortTexts_increasing {texts : List String} (distinct : texts.Nodup) :
    (sortTexts texts).Pairwise (· < ·) := by
  induction texts with
  | nil => exact .nil
  | cons t texts ih =>
    obtain ⟨new, others⟩ := List.nodup_cons.1 distinct
    exact insertSorted_increasing (fun member => new (mem_sortTexts.1 member)) (ih others)

end ControlPlane
