import ControlPlane.Proofs.Http.Chunked
-- The chunked coding as a grammar: chunks behind their sizes, ended by a size of zero and
-- nothing more.
namespace ControlPlane.Chunked

def addDigit (size : Nat) (b : UInt8) : Option Nat := (digit? b).map fun d => size * 16 + d

def SizeIs (digits : Bytes) (size : Nat) : Prop :=
  digits ≠ [] ∧ digits.foldlM addDigit 0 = some size

inductive Coded : Bytes → List Bytes → Prop where
  | last {size : Bytes} (ends : SizeIs size 0) : Coded (size ++ crlf ++ crlf) []
  | chunk {size data rest : Bytes} {chunks : List Bytes} (counted : SizeIs size data.length)
      (full : data ≠ []) (more : Coded rest chunks) :
      Coded (size ++ crlf ++ data ++ crlf ++ rest) (data :: chunks)

theorem readSize_digits {digits : Bytes} {before size : Nat} (rest : Bytes)
    (value : digits.foldlM addDigit before = some size) :
    readSize before (digits ++ crlf ++ rest) = some (size, rest) := by
  induction digits generalizing before with
  | nil =>
    cases value
    rfl
  | cons b digits ih =>
    rw [List.foldlM_cons, Option.bind_eq_bind, Option.bind_eq_some_iff] at value
    obtain ⟨next, added, value⟩ := value
    obtain ⟨d, digit, rfl⟩ := Option.map_eq_some_iff.mp added
    rw [List.cons_append, List.cons_append, readSize_digit digit]
    exact ih value

theorem digits_of_readSize {body rest : Bytes} {before size : Nat}
    (read : readSize before body = some (size, rest)) :
    ∃ digits, body = digits ++ crlf ++ rest ∧ digits.foldlM addDigit before = some size := by
  fun_induction readSize before body with
  | case1 before rest =>
    cases read
    exact ⟨[], rfl, rfl⟩
  | case2 before b body _ ih =>
    obtain ⟨d, digit, read⟩ := Option.bind_eq_some_iff.mp read
    obtain ⟨digits, rfl, value⟩ := ih d read
    refine ⟨b :: digits, rfl, ?_⟩
    simp [addDigit, digit, value]
  | case3 => cases read

theorem head_of_sizeIs {digits : Bytes} {size : Nat} (written : SizeIs digits size)
    (rest : Bytes) : ∃ d, (digits ++ rest).head?.bind digit? = some d := by
  obtain ⟨present, value⟩ := written
  cases digits with
  | nil => exact absurd rfl present
  | cons b digits =>
    rw [List.foldlM_cons, Option.bind_eq_bind, Option.bind_eq_some_iff] at value
    obtain ⟨next, added, _⟩ := value
    obtain ⟨d, digit, _⟩ := Option.map_eq_some_iff.mp added
    exact ⟨d, digit⟩

theorem readChunk_coded {size data : Bytes} (rest : Bytes)
    (counted : SizeIs size data.length) :
    readChunk (size ++ crlf ++ data ++ crlf ++ rest) = some (data, rest) := by
  obtain ⟨d, front⟩ := head_of_sizeIs counted (crlf ++ (data ++ (crlf ++ rest)))
  have read := readSize_digits (data ++ (crlf ++ rest)) counted.2
  simp only [List.append_assoc] at read ⊢
  simp only [readChunk, front, read, List.drop_left, List.take_left]
  rfl

theorem coded_of_readChunk {body data rest : Bytes} (read : readChunk body = some (data, rest)) :
    ∃ size, SizeIs size data.length ∧ body = size ++ crlf ++ data ++ crlf ++ rest := by
  unfold readChunk at read
  split at read
  · rename_i first n after front sized
    dsimp only at read
    split at read
    · rename_i closed
      cases read
      obtain ⟨digits, rfl, value⟩ := digits_of_readSize sized
      have whole : after = after.take n ++ crlf ++ (after.drop n).drop 2 := by
        rw [← closed, List.append_assoc, List.take_append_drop, List.take_append_drop]
      have long : n ≤ after.length := by
        -- a line end stands behind the data, so that none of it is missing
        have two : ((after.drop n).take 2).length = 2 := by rw [closed]; rfl
        simp only [List.length_take, List.length_drop] at two
        omega
      have length : (after.take n).length = n := List.length_take_of_le long
      refine ⟨digits, ⟨?_, by rw [length]; exact value⟩, ?_⟩
      · rintro rfl
        cases front
      · calc digits ++ crlf ++ after
            = digits ++ crlf ++ (after.take n ++ crlf ++ (after.drop n).drop 2) := by rw [← whole]
          _ = _ := by simp only [List.append_assoc]
    · cases read
  · cases read

theorem read?_coded {body : Bytes} {chunks : List Bytes} (coded : Coded body chunks) :
    read? body = some chunks := by
  induction coded with
  | last ends =>
    rename_i size
    have empty : SizeIs size ([] : Bytes).length := ends
    have only : readChunk (size ++ crlf ++ crlf) = some ([], []) := by
      simpa using readChunk_coded [] empty
    rw [read?, only]
  | chunk counted full _ ih =>
    rename_i size data rest chunks _
    have first := readChunk_coded rest counted
    have shorter : rest.length < (size ++ crlf ++ data ++ crlf ++ rest).length := by
      simp only [List.length_append, crlf, List.length_cons]
      omega
    obtain ⟨a, others, rfl⟩ := List.exists_cons_of_ne_nil full
    rw [read?, first]
    simp only [List.isEmpty_cons, Bool.false_eq_true, if_false, shorter, if_true, ih]
    rfl

theorem coded_of_read? {body : Bytes} {chunks : List Bytes} (read : read? body = some chunks) :
    Coded body chunks := by
  fun_induction read? body generalizing chunks with
  | case1 body only =>
    cases read
    obtain ⟨size, counted, rfl⟩ := coded_of_readChunk only
    simpa using Coded.last counted
  | case2 => cases read
  | case3 body data rest _ first full _ ih =>
    obtain ⟨more, later, rfl⟩ := Option.map_eq_some_iff.mp read
    obtain ⟨size, counted, rfl⟩ := coded_of_readChunk first
    exact .chunk counted (by simpa using full) (ih later)
  | case4 => cases read
  | case5 => cases read

theorem read?_eq_some_iff {body : Bytes} {chunks : List Bytes} :
    read? body = some chunks ↔ Coded body chunks := ⟨coded_of_read?, read?_coded⟩

end ControlPlane.Chunked
