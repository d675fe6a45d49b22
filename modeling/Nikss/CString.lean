import Mathlib.Algebra.Group.Int
import Mathlib.Data.List.Basic
import Mathlib.Data.Nat.Digits
import Nikss.Common

/-! # C string functions

The C library routines the pipeline code applies to names, on strings as lists of
characters: `strchr`, `strrchr`, `strstr`, `strtol` (base 10, `long` of 64 bits) and the
truncation `snprintf` applies to fit a buffer, and the conversion of a `uint32_t` to `int`.
-/

namespace Nikss

/-- `strchr`: the offset of the first `c`. -/
def strchr (s : List Char) (c : Char) : Option Nat :=
  match s with
  | [] => none
  | d :: rest => if d = c then some 0 else (strchr rest c).map (· + 1)

/-- Overwriting the `c` that `strchr` found leaves fewer `c` from there on. -/
theorem count_drop_set_lt_of_strchr {c d : Char} (differ : d ≠ c) :
    ∀ {s : List Char} {offset : Nat}, strchr s c = some offset →
      ((s.set offset d).drop offset).count c < s.count c
  | [], _, found => nomatch found
  | x :: rest, offset, found => by
    by_cases hit : x = c
    · simp only [strchr, hit, if_true, Option.some.injEq] at found
      subst found hit
      simp [List.count_cons, differ]
    · simp only [strchr, hit, if_false] at found
      obtain ⟨offset, restFound, rfl⟩ := Option.map_eq_some'.mp found
      calc ((rest.set offset d).drop offset).count c
          < rest.count c := count_drop_set_lt_of_strchr differ restFound
        _ ≤ (x :: rest).count c := List.count_le_count_cons _ _ _

theorem strchr_eq_none {c : Char} : ∀ {s : List Char}, strchr s c = none ↔ c ∉ s
  | [] => by simp [strchr]
  | d :: rest => by
    by_cases hit : d = c
    · simp [strchr, hit]
    · simp [strchr, hit, strchr_eq_none, Ne.symm hit]

/-- `strchr` finds the first `c`: none comes before the offset it returns. -/
theorem strchr_eq_some {c : Char} : ∀ {s : List Char} {offset : Nat}, strchr s c = some offset →
    ∃ before after, s = before ++ c :: after ∧ c ∉ before ∧ before.length = offset
  | [], _, found => nomatch found
  | d :: rest, offset, found => by
    by_cases hit : d = c
    · simp only [strchr, hit, if_true, Option.some.injEq] at found
      exact ⟨[], rest, by rw [hit, List.nil_append], List.not_mem_nil c, found⟩
    · simp only [strchr, hit, if_false] at found
      obtain ⟨offset, restFound, rfl⟩ := Option.map_eq_some'.mp found
      obtain ⟨before, after, rfl, missing, rfl⟩ := strchr_eq_some restFound
      exact ⟨d :: before, after, rfl, by simp [missing, Ne.symm hit], rfl⟩

/-- `strrchr`: the offset of the last `c`. -/
def strrchr (s : List Char) (c : Char) : Option Nat :=
  match s with
  | [] => none
  | d :: rest =>
    match strrchr rest c with
    | some offset => some (offset + 1)
    | none => if d = c then some 0 else none

/-- `strrchr` finds every character the string holds. -/
theorem strrchr_isSome {c : Char} : ∀ {s : List Char}, c ∈ s → (strrchr s c).isSome
  | d :: rest, mem => by
    unfold strrchr
    by_cases inRest : c ∈ rest
    · obtain ⟨offset, found⟩ := Option.isSome_iff_exists.mp (strrchr_isSome inRest)
      simp [found]
    · have same : d = c := ((List.mem_cons.mp mem).resolve_right inRest).symm
      cases strrchr rest c <;> simp [same]

/-- `strstr`: the offset of the first occurrence of `needle`. -/
def strstr (hay needle : List Char) : Option Nat :=
  if needle.isPrefixOf hay then some 0 else
  match hay with
  | [] => none
  | _ :: rest => (strstr rest needle).map (· + 1)

/-- The string holds every character of what `strstr` finds. -/
theorem mem_of_strstr {needle : List Char} {c : Char} (mem : c ∈ needle) :
    ∀ {hay : List Char} {offset : Nat}, strstr hay needle = some offset → c ∈ hay
  | hay, offset, found => by
    unfold strstr at found
    by_cases leading : needle.isPrefixOf hay
    · exact (List.isPrefixOf_iff_prefix.mp leading).subset mem
    · rw [if_neg leading] at found
      cases hay with
      | nil => cases found
      | cons d rest =>
        obtain ⟨offset, restFound, -⟩ := Option.map_eq_some'.mp found
        exact List.mem_cons_of_mem d (mem_of_strstr mem restFound)

/-- `isspace` in the C locale. -/
def isSpace (c : Char) : Bool :=
  c = ' ' || c = '\t' || c = '\n' || c = '\x0b' || c = '\x0c' || c = '\r'

/-- The value of a string of decimal digits. -/
def digitsValue (digits : List Char) : Nat :=
  digits.foldl (fun value digit => 10 * value + (digit.toNat - '0'.toNat)) 0

def LONG_MIN : Int := -2 ^ 63
def LONG_MAX : Int := 2 ^ 63 - 1

/-- `strtol(s, &end, 10)`: leading white space, an optional sign, then decimal digits;
the value saturates at `LONG_MIN`/`LONG_MAX`. Returns the value and the number of
characters consumed, 0 (`end == s`) when there is no digit. -/
def strtol (s : List Char) : Int × Nat :=
  let spaces := (s.takeWhile isSpace).length
  let rest := s.drop spaces
  let (negative, signLength, body) : Bool × Nat × List Char :=
    match rest with
    | '-' :: body => (true, 1, body)
    | '+' :: body => (false, 1, body)
    | body => (false, 0, body)
  let digits := body.takeWhile Char.isDigit
  if digits = [] then (0, 0) else
  let magnitude : Int := digitsValue digits
  (max LONG_MIN (min LONG_MAX (if negative then -magnitude else magnitude)),
    spaces + signLength + digits.length)

/-- The conversion `(int)` of a `uint32_t`. -/
def uint32ToInt (value : Nat) : Int := if value < 2 ^ 31 then value else value - 2 ^ 32

theorem uint32ToInt_of_lt {value : Nat} (small : value < 2 ^ 31) : uint32ToInt value = value :=
  if_pos small

/-- What `snprintf` writes into a buffer of `size` bytes: at most `size - 1` characters. -/
def snprintf (size : Nat) (s : List Char) : List Char := s.take (size - 1)

end Nikss
