import BistColo.Core
import BistColo.StreamKit.Lines
import Mathlib.Data.List.Infix
import Mathlib.Data.List.TakeWhile
/-!
# The config snapshot of an audit pack

The redaction in `scripts/audit_pack.sh` goes by the line: one that has the word
password in it is cut at its first `=`. The loader goes by the section, and under
`[fix.password]` the keys are `current` and `next`. So the snapshot shows those,
and hides `password` under `[ouch]`; `snapshot_eq_iff` says when two files whose
passwords differ have one snapshot.
-/

open StreamKit

namespace BistColo.App.AuditPack

/-! ## The redaction -/

def words : List Bytes := [ascii "password", ascii "Password", ascii "PASSWORD"]

/-- `/password|Password|PASSWORD/` -/
def Mentions (line : Bytes) : Prop := ∃ w ∈ words, w <:+: line

instance (line : Bytes) : Decidable (Mentions line) := inferInstanceAs (Decidable (∃ w ∈ words, w <:+: line))

def redacted : Bytes := ascii "= \"<redacted>\""

/-- `sub(/=.*/, "= \"<redacted>\"")` -/
def cut (line : Bytes) : Bytes := if 61 ∈ line then line.takeWhile (· ≠ 61) ++ redacted else line

def redact (line : Bytes) : Bytes := if Mentions line then cut line else line

/-- `config_snapshot.toml` -/
def snapshot (config : Bytes) : Bytes := unlines ((records config).map redact)

/-! ## Passwords -/

/-- The dotted name of the key that line `i` of a file assigns, if it does, as the
loader's TOML reader finds it. -/
abbrev Keys := List Bytes → Nat → Option (List Bytes)

/-- The keys that `apply` reads as passwords. -/
def passwordKeys : List (List Bytes) :=
  [[ascii "ouch", ascii "password"], [ascii "fix", ascii "password", ascii "current"],
    [ascii "fix", ascii "password", ascii "next"]]

/-- A line with a value in quotes. -/
def quoted (before : Bytes) (q : UInt8) (value after : Bytes) : Bytes := before ++ q :: (value ++ q :: after)

/-- The lines assign values in quotes, and are equal but for these. -/
def SameButValue (l l' : Bytes) : Prop :=
  ∃ before q value value' after, 61 ∈ before ∧ (q = 34 ∨ q = 39) ∧ l = quoted before q value after ∧
    l' = quoted before q value' after

/-- Line by line the files are equal but for the values of passwords. -/
def SameButPasswords (keys : Keys) (f g : Bytes) : Prop :=
  (records f).length = (records g).length ∧
    ∀ i l l', (records f)[i]? = some l → (records g)[i]? = some l' → l ≠ l' →
      SameButValue l l' ∧ ∃ k ∈ passwordKeys, keys (records f) i = some k ∧ keys (records g) i = some k

/-- From its first `=` on the line is as the redaction writes it. -/
def Cleared (line : Bytes) : Prop := line.dropWhile (· ≠ 61) = redacted

/-- The word is in both lines, or in one and the other is cleared. -/
def Hidden (l l' : Bytes) : Prop := Mentions l ∧ Mentions l' ∨ Mentions l ∧ Cleared l' ∨ Cleared l ∧ Mentions l'

/-! ## Two lines -/

theorem takeWhile_append {before : Bytes} (h : 61 ∈ before) (rest : Bytes) :
    (before ++ rest).takeWhile (· ≠ 61) = before.takeWhile (· ≠ 61) := by
  induction before with
  | nil => cases h
  | cons b before ih =>
    rw [List.cons_append, List.takeWhile_cons, List.takeWhile_cons]
    split
    · rename_i hb
      rw [ih ((List.mem_cons.1 h).resolve_left fun he => by simp [← he] at hb)]
    · rfl

theorem cut_append {before : Bytes} (h : 61 ∈ before) (rest : Bytes) :
    cut (before ++ rest) = before.takeWhile (· ≠ 61) ++ redacted := by
  rw [cut, if_pos (List.mem_append_left rest h), takeWhile_append h]

/-- A cleared line is what another is cut to, if they have the same text before the `=`. -/
theorem cut_eq_iff {before : Bytes} (h : 61 ∈ before) (rest rest' : Bytes) :
    cut (before ++ rest) = before ++ rest' ↔ Cleared (before ++ rest') := by
  have hsplit := List.takeWhile_append_dropWhile (p := (· ≠ 61)) (l := before ++ rest')
  rw [takeWhile_append h] at hsplit
  rw [cut_append h, Cleared]
  constructor
  · intro heq
    exact (List.append_cancel_left (hsplit.trans heq.symm))
  · intro hcleared
    rw [← hsplit, hcleared]

theorem redact_eq_iff {l l' : Bytes} (h : SameButValue l l') (hne : l ≠ l') : redact l = redact l' ↔ Hidden l l' := by
  obtain ⟨before, q, value, value', after, heq, -, rfl, rfl⟩ := h
  have hcut : ∀ rest rest', cut (before ++ rest) = cut (before ++ rest') := by
    intro rest rest'
    rw [cut_append heq, cut_append heq]
  unfold redact Hidden quoted
  by_cases hl : Mentions (before ++ q :: (value ++ q :: after))
  · by_cases hl' : Mentions (before ++ q :: (value' ++ q :: after))
    · simp only [hl, hl', if_true, hcut _ (q :: (value' ++ q :: after))]
      simp
    · simp only [hl, hl', if_true, if_false, cut_eq_iff heq]
      simp
  · by_cases hl' : Mentions (before ++ q :: (value' ++ q :: after))
    · simp only [hl, hl', if_true, if_false, eq_comm (b := cut _), cut_eq_iff heq]
      simp
    · simp only [hl, hl', if_false]
      simpa [quoted] using hne

/-- The word in the key hides a value. -/
theorem hidden_of_key {before : Bytes} (h : Mentions before) (q : UInt8) (value value' after : Bytes) :
    Hidden (quoted before q value after) (quoted before q value' after) := by
  obtain ⟨w, hw, hinfix⟩ := h
  exact .inl ⟨⟨w, hw, hinfix.trans (List.prefix_append _ _).isInfix⟩, w, hw, hinfix.trans (List.prefix_append _ _).isInfix⟩

/-! ## Two files -/

theorem newline_not_mem_redact {l : Bytes} (h : 10 ∉ l) : 10 ∉ redact l := by
  unfold redact cut
  split
  · split
    · rw [List.mem_append, not_or]
      exact ⟨fun hmem => h ((List.takeWhile_prefix _).mem hmem), by decide +kernel⟩
    · exact h
  · exact h

/-- Files that are equal but for passwords have one snapshot exactly if every line
in which they differ is hidden. -/
theorem snapshot_eq_iff (keys : Keys) (f g : Bytes) (h : SameButPasswords keys f g) :
    snapshot f = snapshot g ↔
      ∀ (i : Nat) l l', (records f)[i]? = some l → (records g)[i]? = some l' → l ≠ l' → Hidden l l' := by
  have hclean : ∀ (file : Bytes), ∀ l ∈ (records file).map redact, 10 ∉ l := by
    intro file l hl
    obtain ⟨line, hline, rfl⟩ := List.mem_map.1 hl
    exact newline_not_mem_redact (newline_not_mem_of_records hline)
  obtain ⟨hlength, hsame⟩ := h
  rw [snapshot, snapshot, unlines_inj (hclean f) (hclean g)]
  constructor
  · intro heq i l l' hl hl' hne
    have hi := congrArg (·[i]?) heq
    simp only [List.getElem?_map, hl, hl', Option.map_some, Option.some.injEq] at hi
    exact (redact_eq_iff (hsame i l l' hl hl' hne).1 hne).1 hi
  · intro hhidden
    refine List.ext_getElem? fun i => ?_
    rw [List.getElem?_map, List.getElem?_map]
    cases hl : (records f)[i]? with
    | none =>
      rw [List.getElem?_eq_none_iff, hlength, ← List.getElem?_eq_none_iff] at hl
      rw [hl]
    | some l =>
      cases hl' : (records g)[i]? with
      | none =>
        rw [List.getElem?_eq_none_iff, ← hlength, ← List.getElem?_eq_none_iff, hl] at hl'
        cases hl'
      | some l' =>
        by_cases hne : l = l'
        · rw [hne]
        · have hredact := (redact_eq_iff (hsame i l l' hl hl' hne).1 hne).2 (hhidden i l l' hl hl' hne)
          rw [Option.map_some, Option.map_some, hredact]

/-! ## Two configs -/

def isBlank (b : UInt8) : Bool := b = 32 ∨ b = 9

def trim (bs : Bytes) : Bytes := ((bs.dropWhile isBlank).reverse.dropWhile isBlank).reverse

def dotted (name : Bytes) : List Bytes := (name.splitOn 46).map trim

/-- The table that a line opens. -/
def header (line : Bytes) : Option (List Bytes) :=
  match trim line with
  | 91 :: name => some (dotted (name.takeWhile (· ≠ 93)))
  | _ => none

/-- A reader for files with plain headers and bare keys. -/
def plainKeys : Keys := fun file i =>
  (file[i]?).bind fun line =>
    if 61 ∈ line then some (((file.take i).filterMap header).getLast?.getD [] ++ dotted (line.takeWhile (· ≠ 61))) else none

/-- A file with one key under a header. -/
def config (table key value : String) : Bytes :=
  unlines [ascii ("[" ++ table ++ "]"), quoted (ascii (key ++ " = ")) 34 (ascii value) []]

section TwoConfigs

variable {f g first before value value' : Bytes}

/-- Two such files differ in their second line. -/
theorem differ_second (hf : records f = [first, quoted before 34 value []])
    (hg : records g = [first, quoted before 34 value' []]) {i : Nat} {l l' : Bytes} (hl : (records f)[i]? = some l)
    (hl' : (records g)[i]? = some l') (hne : l ≠ l') :
    i = 1 ∧ l = quoted before 34 value [] ∧ l' = quoted before 34 value' [] := by
  rw [hf] at hl
  rw [hg] at hl'
  rcases i with - | - | i
  · cases hl
    exact absurd (Option.some.inj hl') hne
  · cases hl
    cases hl'
    exact ⟨rfl, rfl, rfl⟩
  · cases hl

theorem sameButPasswords_second {keys : Keys} (hf : records f = [first, quoted before 34 value []])
    (hg : records g = [first, quoted before 34 value' []]) (hassigns : 61 ∈ before)
    (hkey : ∃ k ∈ passwordKeys, keys (records f) 1 = some k ∧ keys (records g) 1 = some k) : SameButPasswords keys f g := by
  refine ⟨(congrArg List.length hf).trans (congrArg List.length hg).symm, ?_⟩
  intro i l l' hl hl' hne
  obtain ⟨rfl, rfl, rfl⟩ := differ_second hf hg hl hl' hne
  exact ⟨⟨before, 34, value, value', [], hassigns, .inl rfl, rfl, rfl⟩, hkey⟩

end TwoConfigs

theorem snapshot_hides_ouch :
    snapshot (config "ouch" "password" "first") = snapshot (config "ouch" "password" "second") := by
  have hf : records (config "ouch" "password" "first") =
      [ascii "[ouch]", quoted (ascii "password = ") 34 (ascii "first") []] := by decide +kernel
  have hg : records (config "ouch" "password" "second") =
      [ascii "[ouch]", quoted (ascii "password = ") 34 (ascii "second") []] := by decide +kernel
  refine (snapshot_eq_iff plainKeys _ _ (sameButPasswords_second hf hg (by decide +kernel) (by decide +kernel))).2 ?_
  intro i l l' hl hl' hne
  obtain ⟨-, rfl, rfl⟩ := differ_second hf hg hl hl' hne
  exact hidden_of_key (by decide +kernel) 34 _ _ _

/-- The snapshot shows the password of a FIX session. -/
theorem snapshot_shows_current : ¬ ∀ (keys : Keys) (f g : Bytes), SameButPasswords keys f g → snapshot f = snapshot g := by
  intro hall
  have hf : records (config "fix.password" "current" "first") =
      [ascii "[fix.password]", quoted (ascii "current = ") 34 (ascii "first") []] := by decide +kernel
  have hg : records (config "fix.password" "current" "second") =
      [ascii "[fix.password]", quoted (ascii "current = ") 34 (ascii "second") []] := by decide +kernel
  have heq := hall plainKeys _ _ (sameButPasswords_second hf hg (by decide +kernel) (by decide +kernel))
  exact absurd heq (by decide +kernel)

end BistColo.App.AuditPack
