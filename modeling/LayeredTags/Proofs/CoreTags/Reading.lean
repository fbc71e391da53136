import LayeredTags.CoreTags
import Mathlib.Tactic.SplitIfs

/-!
# Live mustaches of a code

A code is read from left to right. A double brace starts a mustache unless an odd number of
backslashes stands in front of it, and the mustache goes up to the next closing double brace. A
double brace behind an odd number of backslashes is passed over as a whole.

* `Reading`: how far the reading of a code has come.
* `Reading.behind`, `Reading.live`: the reading behind some characters, and the mustaches that end
  in them.
* `Reading.start_lt_of_mem_live`, `start_ne_of_mem_live`: where the mustaches that are found start.
* `Reading.behind_mustache`, `live_mustache`: a mustache that is reached in plain text is found.
* `tame`, `quiet_escapeChars_iff`: the texts that stay text when they are escaped.
-/

namespace LayeredTags.CoreTags

/-- A mustache in a code: where it starts and what stands between its braces. -/
structure Found where
  start : Nat
  content : List Char
  deriving DecidableEq, Repr

/-- How far the reading of a code has come. -/
inductive Reading where
  /-- outside of mustaches, behind an odd number of backslashes or not -/
  | plain (escaped : Bool)
  /-- behind a first brace, in front of which the backslashes were odd in number or not -/
  | brace (escaped : Bool)
  /-- in a mustache, with what has been read of it -/
  | inside (start : Nat) (content : List Char)
  /-- in a mustache behind a first closing brace -/
  | closing (start : Nat) (content : List Char)
  deriving DecidableEq, Repr

namespace Reading

/-- The reading behind the character at a position. -/
def next (pos : Nat) (c : Char) : Reading → Reading
  | plain escaped => if c = '{' then brace escaped else plain (c = '\\' && !escaped)
  | brace escaped =>
    if c = '{' then if escaped then plain false else inside (pos - 1) []
    else plain (c = '\\')
  | inside start content => if c = '}' then closing start content else inside start (content ++ [c])
  | closing start content => if c = '}' then plain false else inside start (content ++ ['}', c])

/-- The mustache that ends with a character. -/
def found? (c : Char) : Reading → Option Found
  | closing start content => if c = '}' then some ⟨start, content⟩ else none
  | plain _ | brace _ | inside _ _ => none

/-- The reading behind characters that start at a position. -/
def behind (pos : Nat) : List Char → Reading → Reading
  | [], r => r
  | c :: cs, r => behind (pos + 1) cs (r.next pos c)

/-- The mustaches that end in characters that start at a position. -/
def live (pos : Nat) : List Char → Reading → List Found
  | [], _ => []
  | c :: cs, r => (r.found? c).toList ++ live (pos + 1) cs (r.next pos c)

variable {r : Reading} {pos p : Nat} {c : Char} {cs ds content : List Char} {f : Found}

theorem live_append :
    r.live pos (cs ++ ds) = r.live pos cs ++ (r.behind pos cs).live (pos + cs.length) ds := by
  induction cs generalizing r pos with
  | nil => rfl
  | cons c cs ih =>
    rw [List.cons_append, live, live, behind, ih, List.length_cons, List.append_assoc]
    congr 3
    omega

/-! ## Where mustaches start -/

/-- The mustache that is being read starts in front of a position. -/
def StartsBefore (pos : Nat) : Reading → Prop
  | plain _ => True
  | brace _ => 0 < pos
  | inside start _ | closing start _ => start < pos

theorem startsBefore_next (h : r.StartsBefore pos) : (r.next pos c).StartsBefore (pos + 1) := by
  cases r with
  | plain escaped =>
    rw [next]
    split_ifs <;> simp [StartsBefore]
  | brace escaped =>
    rw [next]
    split_ifs
    all_goals simp only [StartsBefore]
    omega
  | inside start content =>
    have hlt : start < pos := h
    rw [next]
    split_ifs <;> simp only [StartsBefore] <;> omega
  | closing start content =>
    have hlt : start < pos := h
    rw [next]
    split_ifs
    all_goals simp only [StartsBefore]
    omega

theorem startsBefore_behind (h : r.StartsBefore pos) :
    (r.behind pos cs).StartsBefore (pos + cs.length) := by
  induction cs generalizing r pos with
  | nil => exact h
  | cons c cs ih =>
    have hrest := ih (startsBefore_next (c := c) h)
    rw [List.length_cons, Nat.add_comm cs.length, ← Nat.add_assoc]
    exact hrest

theorem mem_found?_iff : f ∈ r.found? c ↔ c = '}' ∧ r = .closing f.start f.content := by
  obtain ⟨start, content⟩ := f
  cases r <;> simp [found?, eq_comm]

theorem mem_live_cons_iff : f ∈ r.live pos (c :: cs) ↔
    (c = '}' ∧ r = .closing f.start f.content) ∨ f ∈ (r.next pos c).live (pos + 1) cs := by
  rw [live, List.mem_append, Option.mem_toList]
  exact or_congr_left mem_found?_iff

theorem start_lt_of_mem_live (h : r.StartsBefore pos) (hf : f ∈ r.live pos cs) :
    f.start < pos + cs.length := by
  induction cs generalizing r pos with
  | nil => cases hf
  | cons c cs ih =>
    rw [List.length_cons]
    rcases mem_live_cons_iff.mp hf with ⟨-, rfl⟩ | hf
    · have hlt : f.start < pos := h
      omega
    · have hlt := ih (startsBefore_next h) hf
      omega

/-- What is read cannot become a mustache that starts at an earlier position. -/
def Misses (p pos : Nat) : Reading → Prop
  | plain _ => True
  | brace escaped => escaped = false → pos ≠ p + 1
  | inside start _ | closing start _ => start ≠ p

theorem misses_next (h : r.Misses p pos) (hpos : p < pos) :
    (r.next pos c).Misses p (pos + 1) := by
  cases r with
  | plain escaped =>
    rw [next]
    split_ifs <;> simp only [Misses]
    omega
  | brace escaped =>
    rw [next]
    split_ifs with hbrace hescaped
    all_goals simp only [Misses]
    have hne : pos ≠ p + 1 := h (by simpa using hescaped)
    omega
  | inside start content =>
    rw [next]
    split_ifs <;> exact h
  | closing start content =>
    rw [next]
    split_ifs <;> simp only [Misses]
    exact h

theorem start_ne_of_misses (h : r.Misses p pos) (hpos : p < pos) (hf : f ∈ r.live pos cs) :
    f.start ≠ p := by
  induction cs generalizing r pos with
  | nil => cases hf
  | cons c cs ih =>
    rcases mem_live_cons_iff.mp hf with ⟨-, rfl⟩ | hf
    · exact h
    · exact ih (misses_next h hpos) (by omega) hf

theorem start_ne_of_mem_live (h : r.StartsBefore pos) (hr : r ≠ .plain false)
    (hf : f ∈ r.live pos cs) : f.start ≠ pos := by
  cases cs with
  | nil => cases hf
  | cons c cs =>
    rcases mem_live_cons_iff.mp hf with ⟨-, rfl⟩ | hf
    · exact Nat.ne_of_lt h
    · have hmisses : (r.next pos c).Misses pos (pos + 1) := by
        cases r with
        | plain escaped =>
          rw [next]
          split_ifs <;> simp only [Misses]
          intro hescaped
          exact absurd (congrArg plain hescaped) hr
        | brace escaped =>
          have hlt : 0 < pos := h
          rw [next]
          split_ifs <;> simp only [Misses]
          omega
        | inside start content =>
          rw [next]
          split_ifs <;> exact Nat.ne_of_lt h
        | closing start content =>
          rw [next]
          split_ifs <;> simp only [Misses]
          exact Nat.ne_of_lt h
      exact start_ne_of_misses hmisses (Nat.lt_succ_self pos) hf

/-! ## Mustaches that are reached in plain text -/

theorem behind_inside {start : Nat} {before : List Char} (h : '}' ∉ content) :
    (inside start before).behind pos (content ++ ['}', '}']) = plain false := by
  induction content generalizing pos before with
  | nil => rfl
  | cons c content ih =>
    rw [List.mem_cons, not_or] at h
    rw [List.cons_append, behind, next, if_neg (Ne.symm h.1), ih h.2]

theorem live_inside {start : Nat} {before : List Char} (h : '}' ∉ content) :
    (inside start before).live pos (content ++ ['}', '}']) = [⟨start, before ++ content⟩] := by
  induction content generalizing pos before with
  | nil => simp [live, next, found?]
  | cons c content ih =>
    rw [List.mem_cons, not_or] at h
    rw [List.cons_append, live, next, if_neg (Ne.symm h.1), ih h.2]
    simp [found?]

theorem behind_mustache (h : '}' ∉ content) :
    (plain false).behind pos ('{' :: '{' :: (content ++ ['}', '}'])) = plain false :=
  behind_inside h

theorem live_mustache (h : '}' ∉ content) :
    (plain false).live pos ('{' :: '{' :: (content ++ ['}', '}'])) = [⟨pos, content⟩] :=
  live_inside h

/-! ## Texts that hold no mustache -/

/-- The characters hold no mustache and leave plain text behind. -/
def Quiet (pos : Nat) (cs : List Char) (r : Reading) : Prop :=
  r.behind pos cs = plain false ∧ r.live pos cs = []

theorem quiet_cons_iff (h : r.found? c = none) :
    r.Quiet pos (c :: cs) ↔ (r.next pos c).Quiet (pos + 1) cs := by
  simp [Quiet, behind, live, h]

theorem quiet_of_notMem (hbrace : '{' ∉ cs) (hbackslash : '\\' ∉ cs) :
    (plain false).Quiet pos cs := by
  induction cs generalizing pos with
  | nil => exact ⟨rfl, rfl⟩
  | cons c cs ih =>
    rw [List.mem_cons, not_or] at hbrace hbackslash
    have hnext : (plain false).next pos c = plain false := by
      simp [next, Ne.symm hbrace.1, Ne.symm hbackslash.1]
    rw [quiet_cons_iff rfl, hnext]
    exact ih hbrace.2 hbackslash.2

theorem quiet_brace_iff {escaped : Bool} (hc : c ≠ '{') :
    (brace escaped).Quiet pos (c :: cs) ↔ (plain false).Quiet pos (c :: cs) := by
  rw [quiet_cons_iff rfl, quiet_cons_iff rfl, next, next, if_neg hc, if_neg hc]
  simp

def IsInside : Reading → Prop
  | plain _ | brace _ => False
  | inside _ _ | closing _ _ => True

/-- A mustache that is being read is found before plain text is reached again. -/
theorem not_quiet_of_isInside (h : r.IsInside) : ¬ r.Quiet pos cs := by
  induction cs generalizing r pos with
  | nil =>
    rintro ⟨hbehind, -⟩
    rw [show r = plain false from hbehind] at h
    exact h
  | cons c cs ih =>
    cases r with
    | plain escaped => exact h.elim
    | brace escaped => exact h.elim
    | inside start content =>
      rw [quiet_cons_iff rfl, next]
      split_ifs
      · exact ih trivial
      · exact ih trivial
    | closing start content =>
      by_cases hc : c = '}'
      · subst hc
        simp [Quiet, live, found?]
      · have hfound : (closing start content).found? c = none := if_neg hc
        rw [quiet_cons_iff hfound, next, if_neg hc]
        exact ih trivial

end Reading

theorem head?_ne_of_no_pair {c : Char} {cs : List Char}
    (h : ∀ rest, c = '{' → cs = '{' :: rest → False) :
    c = '{' → cs.head? ≠ some '{' := by
  intro hc hhead
  obtain ⟨rest, rfl⟩ := List.head?_eq_some_iff.mp hhead
  exact h rest hc rfl

theorem escapeChars_cons {c : Char} {cs : List Char} (h : c = '{' → cs.head? ≠ some '{') :
    escapeChars (c :: cs) = c :: escapeChars cs := by
  refine escapeChars.eq_2 c cs fun rest hc hcs => h hc ?_
  rw [hcs]
  rfl

/-- Whether a text stays text when its double braces are escaped, whatever follows it: no double
brace stands behind an odd number of backslashes, and the text does not end in such a number or in
a single brace. -/
def tame (odd : Bool) : List Char → Bool
  | '{' :: '{' :: cs => !odd && tame false cs
  | ['{'] => false
  | c :: cs => tame (c = '\\' && !odd) cs
  | [] => !odd

theorem quiet_escapeChars_iff {odd : Bool} {cs : List Char} {pos : Nat} :
    (Reading.plain odd).Quiet pos (escapeChars cs) ↔ tame odd cs = true := by
  induction odd, cs using tame.induct generalizing pos with
  | case1 odd cs ih =>
    rw [escapeChars, tame, Bool.and_eq_true, Bool.not_eq_true', Reading.quiet_cons_iff rfl,
      Reading.quiet_cons_iff rfl, Reading.quiet_cons_iff rfl]
    cases odd with
    | false => simpa [Reading.next] using ih
    | true =>
      have hinside : (Reading.inside (pos + 1 + 1 - 1) []).IsInside := trivial
      simpa [Reading.next] using Reading.not_quiet_of_isInside hinside
  | case2 odd => simp [escapeChars, tame, Reading.Quiet, Reading.behind, Reading.next]
  | case3 odd c cs hpair hsingle ih =>
    have hescape := escapeChars_cons (head?_ne_of_no_pair hpair)
    rw [tame.eq_3 _ _ _ hpair hsingle, hescape, Reading.quiet_cons_iff rfl]
    by_cases hc : c = '{'
    · -- a single brace: the next character is read as if the brace were not there
      subst hc
      obtain ⟨d, ds, rfl⟩ : ∃ d ds, cs = d :: ds :=
        List.exists_cons_of_ne_nil fun hnil => hsingle rfl hnil
      have hd : d ≠ '{' := fun hd => hpair ds rfl (by rw [hd])
      have hrest : escapeChars (d :: ds) = d :: escapeChars ds :=
        escapeChars_cons fun hbrace => absurd hbrace hd
      have hplain : (Reading.plain false).Quiet (pos + 1) (escapeChars (d :: ds)) ↔
          tame false (d :: ds) = true := ih
      rw [hrest] at hplain ⊢
      exact (Reading.quiet_brace_iff hd).trans hplain
    · rw [Reading.next, if_neg hc]
      exact ih
  | case4 odd => simp [escapeChars, tame, Reading.Quiet, Reading.behind, Reading.live]

end LayeredTags.CoreTags
