import ControlPlane.Proofs.Text.Segments
import Mathlib.Data.List.Basic
-- How a path is resolved: which of its names no double dot takes back, and how many names
-- it takes back of what it is joined to.
namespace ControlPlane

def isName (part : String) : Bool := part ≠ "" && part ≠ "." && part ≠ ".."

-- No beginning of a path has more double dots than names.
def Balanced (parts : List String) : Prop :=
  ∀ n, (parts.take n).count ".." ≤ (parts.take n).countP isName

def climb : List String → Nat
  | [] => 0
  | part :: rest =>
    if isName part then climb rest - 1
    else if part = ".." then climb rest + 1
    else climb rest

theorem not_isName_up : isName ".." = false := by decide

theorem ne_up_of_isName {part : String} (named : isName part = true) : part ≠ ".." := by
  rintro rfl
  cases not_isName_up.symm.trans named

theorem climb_le_iff {parts : List String} {k : Nat} : climb parts ≤ k ↔
    ∀ n, (parts.take n).count ".." ≤ (parts.take n).countP isName + k := by
  induction parts generalizing k with
  | nil => simp [climb]
  | cons part rest ih =>
    have beginnings : (∀ n, ((part :: rest).take n).count ".." ≤
        ((part :: rest).take n).countP isName + k) ↔
        ∀ n, (part :: rest.take n).count ".." ≤ (part :: rest.take n).countP isName + k := by
      constructor
      · exact fun all n => all (n + 1)
      · intro all n
        cases n with
        | zero => exact Nat.zero_le _
        | succ n => exact all n
    rw [beginnings, climb]
    split
    · rename_i named
      have counts (n : Nat) : (part :: rest.take n).count ".." = (rest.take n).count ".." :=
        List.count_cons_of_ne (ne_up_of_isName named)
      simp only [counts, List.countP_cons_of_pos named, Nat.sub_le_iff_le_add, ih]
      exact forall_congr' fun n => by omega
    · rename_i unnamed
      simp only [List.countP_cons_of_neg unnamed]
      split
      · rename_i up
        subst up
        simp only [List.count_cons_self]
        constructor
        · intro bound n
          have later := (ih (k := k - 1)).1 (by omega) n
          omega
        · intro all
          have first := all 0
          have later : climb rest ≤ k - 1 := ih.2 fun n => by
            have step := all n
            simp at first
            omega
          simp at first
          omega
      · rename_i still
        simp only [List.count_cons_of_ne still]
        exact ih

theorem climb_eq_zero {parts : List String} : climb parts = 0 ↔ Balanced parts := by
  rw [← Nat.le_zero, climb_le_iff]
  rfl

instance (parts : List String) : Decidable (Balanced parts) := decidable_of_iff _ climb_eq_zero

theorem balanced_of_level {parts : List String} (level : ".." ∉ parts) : Balanced parts := by
  intro n
  rw [List.count_eq_zero.2 fun climbs => level (List.mem_of_mem_take climbs)]
  exact Nat.zero_le _

def staying : List String → List String
  | [] => []
  | part :: rest =>
    if isName part = true ∧ Balanced rest then part :: staying rest else staying rest

theorem settle_name {part : String} (named : isName part = true) (names : List String) :
    settle names part = names ++ [part] := by
  simp only [isName, Bool.and_eq_true, decide_eq_true_eq] at named
  rw [settle, if_neg (by simp [named]), if_neg named.2]

theorem settle_skip {part : String} (unnamed : ¬ isName part = true) (still : part ≠ "..")
    (names : List String) : settle names part = names := by
  refine if_pos ?_
  by_cases empty : part = ""
  · exact .inl empty
  · by_cases dot : part = "."
    · exact .inr dot
    · exact absurd (by simp [isName, empty, dot, still]) unnamed

-- A path takes some names back of what it is joined to, and adds the names that stay.
theorem foldl_settle (parts names : List String) : parts.foldl settle names =
    names.take (names.length - climb parts) ++ staying parts := by
  induction parts generalizing names with
  | nil => simp [climb, staying]
  | cons part rest ih =>
    rw [List.foldl_cons, ih, climb, staying]
    split
    · rename_i named
      rw [settle_name named]
      by_cases balanced : Balanced rest
      · have none := climb_eq_zero.2 balanced
        have whole : (names ++ [part]).length - 0 = (names ++ [part]).length := rfl
        rw [if_pos ⟨named, balanced⟩, none, whole, List.take_length]
        simp
      · have some : climb rest ≠ 0 := mt climb_eq_zero.1 balanced
        rw [if_neg (by simp [balanced]), List.take_append_of_le_length, List.length_append,
          List.length_singleton]
        · congr 2
          omega
        · simp only [List.length_append, List.length_singleton]
          omega
    · rename_i unnamed
      have gone : ¬ (isName part = true ∧ Balanced rest) := fun both => unnamed both.1
      rw [if_neg gone]
      split
      · rename_i up
        rw [up, settle, if_neg (by decide), if_pos rfl, List.dropLast_eq_take, List.take_take,
          List.length_take]
        congr 2
        omega
      · rename_i still
        rw [settle_skip unnamed still]

theorem cleanNames_eq_staying (parts : List String) : cleanNames parts = staying parts := by
  rw [cleanNames, foldl_settle, List.take_nil, List.nil_append]

theorem cleanNames_append_balanced (parts : List String) {later : List String}
    (balanced : Balanced later) :
    cleanNames (parts ++ later) = cleanNames parts ++ cleanNames later := by
  rw [cleanNames, List.foldl_append, foldl_settle later, climb_eq_zero.2 balanced, Nat.sub_zero,
    List.take_length, cleanNames_eq_staying later]
  rfl

theorem cleanNames_segments (path : String) :
    ∀ name ∈ cleanNames (segments path), IsCleanName name :=
  cleanNames_clean fun _ member => no_slash_of_mem_segments member

end ControlPlane
