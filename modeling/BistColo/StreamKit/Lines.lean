import BistColo.StreamKit.Splitter
/-!
# Lines of text

A text is lines that each end with a newline, and a line may have columns with
two blanks between them. `lines` splits a text, `column` takes the first column
off a line, and `readText` reads a whole text with a reader for its lines.
-/

namespace StreamKit

/-- The text up to the first newline, and what follows it. -/
def nextLine : List UInt8 → Option (List UInt8 × List UInt8)
  | [] => none
  | b :: xs => if b = 10 then some ([], xs) else (nextLine xs).map fun p => (b :: p.1, p.2)

theorem nextLine_append {l : List UInt8} (h : 10 ∉ l) (r : List UInt8) : nextLine (l ++ 10 :: r) = some (l, r) := by
  induction l with
  | nil => simp [nextLine]
  | cons b l ih =>
    rw [List.mem_cons, not_or] at h
    rw [List.cons_append, nextLine, if_neg (Ne.symm h.1), ih h.2]
    rfl

theorem nextLine_eq_some {xs l r : List UInt8} (h : nextLine xs = some (l, r)) : xs = l ++ 10 :: r ∧ 10 ∉ l := by
  induction xs generalizing l with
  | nil => cases h
  | cons b xs ih =>
    rw [nextLine] at h
    split at h
    · rename_i hb
      cases h
      exact ⟨by rw [hb]; rfl, List.not_mem_nil⟩
    · rename_i hb
      rw [Option.map_eq_some_iff] at h
      obtain ⟨⟨l, r⟩, hn, hp⟩ := h
      cases hp
      obtain ⟨rfl, hl⟩ := ih hn
      refine ⟨rfl, ?_⟩
      rw [List.mem_cons, not_or]
      exact ⟨Ne.symm hb, hl⟩

/-- The lines of a text. -/
def lines : Splitter UInt8 (List UInt8) where
  next := nextLine
  shrinks h := by
    obtain ⟨rfl, -⟩ := nextLine_eq_some h
    rw [List.length_append, List.length_cons]
    omega
  stable ys h := by
    obtain ⟨rfl, hl⟩ := nextLine_eq_some h
    rw [List.append_assoc, List.cons_append]
    exact nextLine_append hl _

theorem newline_not_mem_of_frames {xs l : List UInt8} (h : l ∈ lines.frames xs) : 10 ∉ l := by
  induction xs using lines.split_induction with
  | done xs hnone =>
    rw [lines.frames_none hnone] at h
    cases h
  | frame xs b r hsome ih =>
    rw [lines.frames_some hsome] at h
    obtain rfl | h := List.mem_cons.1 h
    · exact (nextLine_eq_some hsome).2
    · exact ih h

theorem newline_not_mem_of_nextLine {xs : List UInt8} (h : nextLine xs = none) : 10 ∉ xs := by
  induction xs with
  | nil => exact List.not_mem_nil
  | cons b xs ih =>
    rw [nextLine] at h
    split at h
    · cases h
    · rename_i hb
      rw [List.mem_cons, not_or]
      exact ⟨Ne.symm hb, ih (Option.map_eq_none_iff.1 h)⟩

theorem newline_not_mem_rest (xs : List UInt8) : 10 ∉ lines.rest xs := by
  induction xs using lines.split_induction with
  | done xs hnone =>
    rw [lines.rest_none hnone]
    exact newline_not_mem_of_nextLine hnone
  | frame xs b r hsome ih =>
    rw [lines.rest_some hsome]
    exact ih

/-- The records of a text: its lines, and what is left behind the last newline. -/
def records (xs : List UInt8) : List (List UInt8) :=
  lines.frames xs ++ if lines.rest xs = [] then [] else [lines.rest xs]

theorem newline_not_mem_of_records {xs l : List UInt8} (h : l ∈ records xs) : 10 ∉ l := by
  obtain h | h := List.mem_append.1 h
  · exact newline_not_mem_of_frames h
  · split at h
    · cases h
    · rw [List.mem_singleton.1 h]
      exact newline_not_mem_rest xs

/-- Lines, each with a newline. -/
def unlines (ls : List (List UInt8)) : List UInt8 := ls.flatMap fun l => l ++ [10]

theorem frames_unlines {ls : List (List UInt8)} (h : ∀ l ∈ ls, 10 ∉ l) : lines.frames (unlines ls) = ls := by
  have hsplit := lines.split_encoded (fun l => l ++ [10]) id ls [] ?_ rfl
  · rw [Splitter.split_eq, Prod.mk.injEq, List.append_nil, List.map_id] at hsplit
    exact hsplit.1
  · intro l hl ys
    rw [List.append_assoc]
    exact nextLine_append (h l hl) ys

theorem unlines_inj {ls ls' : List (List UInt8)} (h : ∀ l ∈ ls, 10 ∉ l) (h' : ∀ l ∈ ls', 10 ∉ l) :
    unlines ls = unlines ls' ↔ ls = ls' := by
  constructor
  · intro heq
    rw [← frames_unlines h, heq, frames_unlines h']
  · exact congrArg unlines

/-! ## Reading a text -/

variable {α : Type*} (read : List UInt8 → Option α)

/-- What the lines of a text say, if it ends with a newline and each line can be read. -/
def readText (xs : List UInt8) : Option (List α) :=
  if lines.rest xs = [] then (lines.frames xs).mapM read else none

@[simp] theorem readText_nil : readText read [] = some [] := rfl

/-- The first line is read, and then the others. -/
theorem readText_line {l : List UInt8} (h : 10 ∉ l) (xs : List UInt8) :
    readText read (l ++ 10 :: xs) = (read l).bind fun a => (readText read xs).map (a :: ·) := by
  have hnext : lines.next (l ++ 10 :: xs) = some (l, xs) := nextLine_append h xs
  unfold readText
  rw [lines.rest_some hnext, lines.frames_some hnext]
  split
  · rw [List.mapM_cons]
    cases read l with
    | none => rfl
    | some a => cases (lines.frames xs).mapM read <;> rfl
  · cases read l <;> rfl

/-! ## Columns -/

/-- The line up to the first two blanks, and what follows them. -/
def column : List UInt8 → List UInt8 × List UInt8
  | [] => ([], [])
  | b :: xs => if b = 32 ∧ xs.head? = some 32 then ([], xs.tail) else (b :: (column xs).1, (column xs).2)

theorem column_append {c : List UInt8} (h : 32 ∉ c) (xs : List UInt8) : column (c ++ 32 :: 32 :: xs) = (c, xs) := by
  induction c with
  | nil => simp [column]
  | cons b c ih =>
    rw [List.mem_cons, not_or] at h
    rw [List.cons_append, column, if_neg (fun hb => h.1 hb.1.symm), ih h.2]

end StreamKit
