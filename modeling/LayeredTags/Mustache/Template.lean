import LayeredTags.Mustache.Tag

/-!
# Mustache templates

The code that compiling leaves is a mustache template: text with values and sections in double
braces. A value may also stand in triple braces.

* `Mustache.Fragment`: a text, a value, a call or a section.
* `Mustache.parse`: the fragments of a code, unless it is malformed.

A backslash before a double brace makes the brace literal and vanishes. Of several backslashes
before a double brace only the first vanishes, and the brace starts a mustache.
-/

namespace LayeredTags.Mustache

/-- A part of a template. A helper that does not exist is only refused where it is shown. -/
inductive Fragment where
  | text (s : String)
  | value (path : ValuePath)
  | call (helper? : Option Helper) (arguments : List Argument)
  /-- a section with its alternative, if it has one -/
  | block (helper? : Option Helper) (arguments : List Argument) (body : List Fragment)
      (inverse : Option (List Fragment))
  deriving Inhabited

/-! ## Splitting a code -/

/-- The braces around a mustache. -/
inductive Braces where
  | double
  | triple
  deriving DecidableEq, Repr

/-- A text, or what stands between braces. -/
inductive Piece where
  | text (reversed : List Char)
  | tag (braces : Braces) (inner : List Char)

/-- Splits a text at the first occurrence of `closer` that does not stand between brackets. -/
def splitAtCloser (closer : List Char) (isBracketed : Bool) :
    List Char → Option (List Char × List Char)
  | [] => none
  | c :: rest =>
    if isBracketed = false ∧ closer <+: c :: rest then
      some ([], (c :: rest).drop closer.length)
    else
      (splitAtCloser closer (if isBracketed then c ≠ ']' else c = '[') rest).map
        fun (inner, rest) => (c :: inner, rest)

theorem length_splitAtCloser {closer cs inner rest : List Char} {isBracketed : Bool}
    (hne : closer ≠ []) (h : splitAtCloser closer isBracketed cs = some (inner, rest)) :
    rest.length < cs.length := by
  induction cs generalizing inner isBracketed with
  | nil => simp [splitAtCloser] at h
  | cons c cs ih =>
    simp only [splitAtCloser] at h
    split at h
    · simp only [Option.some.injEq, Prod.mk.injEq] at h
      have := List.length_pos_iff.2 hne
      rw [← h.2, List.length_drop, List.length_cons]
      omega
    · simp only [Option.map_eq_some_iff, Prod.exists, Prod.mk.injEq] at h
      obtain ⟨i, r, hs, -, rfl⟩ := h
      have := ih hs
      rw [List.length_cons]
      omega

inductive Step where
  | text (reversed rest : List Char)
  | tag (braces : Braces) (inner rest : List Char)
  | unclosed

/-- The backslashes and braces at the start of a code that begins with a backslash. -/
def backslashStep (cs : List Char) : Step :=
  let run := cs.takeWhile (· = '\\')
  match cs.dropWhile (· = '\\') with
  | '{' :: '{' :: rest =>
    if run = [] then
      match rest with
      | '{' :: '{' :: rest => .text ['{', '{', '{', '{'] rest
      | rest => .text ['{', '{'] rest
    else .text run ('{' :: '{' :: rest)
  | rest => .text ('\\' :: run) rest

/-- The mustache behind a double brace; with a third brace it ends at three braces. -/
def mustacheStep (cs : List Char) : Step :=
  match skipBlanks cs with
  | '{' :: rest =>
    match splitAtCloser ['}'] false rest with
    | some (inner, rest) =>
      match skipBlanks rest with
      | '}' :: '}' :: rest => .tag .triple inner rest
      | _ => .unclosed
    | none => .unclosed
  | _ =>
    match splitAtCloser ['}', '}'] false cs with
    | some (inner, rest) => .tag .double inner rest
    | none => .unclosed

def step : List Char → Step
  | '\\' :: rest => backslashStep rest
  | '{' :: '{' :: rest => mustacheStep rest
  | c :: rest => .text [c] rest
  | [] => .text [] []

/-- The text so far, unless it is empty. -/
def flush (reversed : List Char) : List Piece :=
  if reversed = [] then [] else [.text reversed]

theorem length_of_backslashStep {cs reversed rest : List Char}
    (h : backslashStep cs = .text reversed rest) : rest.length ≤ cs.length := by
  have hle : (cs.dropWhile (· = '\\')).length ≤ cs.length := (List.dropWhile_sublist _).length_le
  simp only [backslashStep] at h
  split at h
  · rename_i r heq
    rw [heq] at hle
    simp only [List.length_cons] at hle
    split at h
    · split at h
      · simp only [Step.text.injEq] at h
        rw [← h.2]
        simp only [List.length_cons] at hle
        omega
      · simp only [Step.text.injEq] at h
        rw [← h.2]
        omega
    · simp only [Step.text.injEq] at h
      rw [← h.2]
      simpa using hle
  · simp only [Step.text.injEq] at h
    rw [← h.2]
    exact hle

theorem length_skipBlanks (cs : List Char) : (skipBlanks cs).length ≤ cs.length :=
  (List.dropWhile_sublist _).length_le

theorem length_of_mustacheStep {braces : Braces} {cs inner rest : List Char}
    (h : mustacheStep cs = .tag braces inner rest) : rest.length < cs.length := by
  simp only [mustacheStep] at h
  have hcs := length_skipBlanks cs
  split at h
  · rename_i r hr
    rw [hr] at hcs
    split at h
    · rename_i after heq
      have hafter := length_splitAtCloser (by simp) heq
      have hblank := length_skipBlanks after
      split at h
      · rename_i last hlast
        simp only [Step.tag.injEq] at h
        rw [hlast, h.2.2] at hblank
        simp only [List.length_cons] at hcs hblank
        omega
      · simp at h
    · simp at h
  · split at h
    · rename_i heq
      simp only [Step.tag.injEq] at h
      rw [← h.2.2]
      exact length_splitAtCloser (by simp) heq
    · simp at h

theorem length_of_step_text {c : Char} {cs reversed rest : List Char}
    (h : step (c :: cs) = .text reversed rest) : rest.length < (c :: cs).length := by
  rw [step.eq_def] at h
  split at h
  · rename_i heq
    have := length_of_backslashStep h
    simp only [List.cons.injEq] at heq
    rw [heq.2, List.length_cons]
    omega
  · simp only [mustacheStep] at h
    split at h <;> split at h <;> try split at h
    all_goals simp at h
  · rename_i heq
    simp only [Step.text.injEq] at h
    rw [heq, ← h.2]
    simp
  · simp_all

theorem length_of_step_tag {c : Char} {braces : Braces} {cs inner rest : List Char}
    (h : step (c :: cs) = .tag braces inner rest) : rest.length < (c :: cs).length := by
  rw [step.eq_def] at h
  split at h
  · simp only [backslashStep] at h
    split at h
    · split at h
      · split at h <;> simp at h
      · simp at h
    · simp at h
  · rename_i heq
    have := length_of_mustacheStep h
    rw [heq, List.length_cons, List.length_cons]
    omega
  · simp at h
  · simp at h

/-- The pieces of a code behind a text, which is held in reverse. -/
def pieces (text : List Char) : List Char → Option (List Piece)
  | [] => some (flush text)
  | c :: cs =>
    match _h : step (c :: cs) with
    | .text reversed rest => pieces (reversed ++ text) rest
    | .tag braces inner rest =>
      (pieces [] rest).map fun ps => flush text ++ .tag braces inner :: ps
    | .unclosed => none
termination_by cs => cs.length
decreasing_by
  · exact length_of_step_text ‹_›
  · exact length_of_step_tag ‹_›

/-! ## Nesting -/

/-- The part of a section that one helper decides about, up to the alternative; its fragments are
held in reverse. -/
structure Branch where
  helper : String
  arguments : List Argument
  body : List Fragment

/-- The section of a branch with its alternative, if it has one. -/
def Branch.fragment (b : Branch) (inverse : Option (List Fragment)) : Fragment :=
  .block (Helper.ofName? b.helper) b.arguments b.body.reverse inverse

/-- A section under way: the name that ends it, the branches that are complete, the last one first,
the branch under way, and the fragments of the last alternative, in reverse, if it has begun. -/
structure OpenSection where
  name : String
  earlier : List Branch
  branch : Branch
  inverse : Option (List Fragment)

namespace OpenSection

def push (s : OpenSection) (f : Fragment) : OpenSection :=
  match s.inverse with
  | none => { s with branch := { s.branch with body := f :: s.branch.body } }
  | some inverse => { s with inverse := some (f :: inverse) }

/-- The section; each branch is the alternative of the one before. -/
def close (s : OpenSection) : Fragment :=
  s.earlier.foldl (fun inner b => b.fragment (some [inner]))
    (s.branch.fragment (s.inverse.map List.reverse))

end OpenSection

/-- The fragments so far at the outermost level, in reverse, and the open sections, the innermost
first. -/
structure Builder where
  done : List Fragment
  opened : List OpenSection

namespace Builder

def push (b : Builder) (f : Fragment) : Builder :=
  match b.opened with
  | [] => { b with done := f :: b.done }
  | s :: rest => { b with opened := s.push f :: rest }

/-- Adds a tag. Only a section without an alternative can begin one. -/
def tag (b : Builder) : Tag → Option Builder
  | .value path => some (b.push (.value path))
  | .call helper arguments => some (b.push (.call (Helper.ofName? helper) arguments))
  | .opening helper arguments =>
    some { b with opened := ⟨helper, [], ⟨helper, arguments, []⟩, none⟩ :: b.opened }
  | .alternative =>
    match b.opened with
    | ⟨name, earlier, branch, none⟩ :: rest =>
      some { b with opened := ⟨name, earlier, branch, some []⟩ :: rest }
    | _ => none
  | .chained helper arguments =>
    match b.opened with
    | ⟨name, earlier, branch, none⟩ :: rest =>
      some { b with
        opened := ⟨name, branch :: earlier, ⟨helper, arguments, []⟩, none⟩ :: rest }
    | _ => none
  | .closing helper =>
    match b.opened with
    | s :: rest =>
      if s.name = helper then some (({ b with opened := rest } : Builder).push s.close) else none
    | [] => none

/-- Adds a piece. Only a value or call may stand in triple braces. -/
def piece (b : Builder) : Piece → Option Builder
  | .text reversed => some (b.push (.text (String.ofList reversed.reverse)))
  | .tag .double inner => (Tag.ofChars? inner).bind b.tag
  | .tag .triple inner => (Tag.expression? inner).bind b.tag

end Builder

/-- The fragments of a code; a code with an unclosed brace, an unknown mustache or an open section
is malformed. -/
def parse (code : String) : Option (List Fragment) := do
  let ps ← pieces [] code.toList
  let b ← ps.foldlM Builder.piece ⟨[], []⟩
  match b.opened with
  | [] => some b.done.reverse
  | _ :: _ => none

end LayeredTags.Mustache
