import LayeredTags.Proofs.Json.Lexeme

/-!
# Drafts of printed values

* `Reading.resume`: reading goes on with a content.
* `Printed`: wherever a value may stand, some characters are read as one draft.
* `Printed.string`, `Printed.exists_natural`, `Printed.array`, `Printed.object`: the drafts of
  printed values, from those of their parts.
* `Document.read_of_printed`: a content that holds a printed value and nothing else.
-/

namespace LayeredTags.Json

/-- Reading goes on with a content. -/
def Reading.resume (r : Reading) (content : Content) : Reading :=
  (Lexeme.splitFrom .between content).foldl Reading.step r

/-- A value may come next. -/
def Awaited.IsValue (awaited : Awaited) : Prop :=
  awaited = .value ∨ awaited = .valueOrClose

/-- Wherever a value may stand, the characters are read as one draft. -/
def Printed (cs : List Char) (draft : Draft) : Prop :=
  ∀ containers (awaited : Awaited) (rest : Content), awaited.IsValue → Lexeme.Ends rest →
    (Reading.open containers awaited).resume (glyphs cs ++ rest) =
      (Reading.place draft containers).resume rest

namespace Reading

theorem resume_comma (r : Reading) (rest : Content) :
    r.resume (.char ',' :: rest) = (r.step .comma).resume rest := rfl

theorem resume_colon (r : Reading) (rest : Content) :
    r.resume (.char ':' :: rest) = (r.step .colon).resume rest := rfl

theorem resume_openArray (r : Reading) (rest : Content) :
    r.resume (.char '[' :: rest) = (r.step .openArray).resume rest := rfl

theorem resume_closeArray (r : Reading) (rest : Content) :
    r.resume (.char ']' :: rest) = (r.step .closeArray).resume rest := rfl

theorem resume_openObject (r : Reading) (rest : Content) :
    r.resume (.char '\x7b' :: rest) = (r.step .openObject).resume rest := rfl

theorem resume_closeObject (r : Reading) (rest : Content) :
    r.resume (.char '\x7d' :: rest) = (r.step .closeObject).resume rest := rfl

theorem resume_quote (r : Reading) (s : String) (rest : Content) :
    r.resume (glyphs (quote s) ++ rest) = (r.step (.string (.ok s))).resume rest := by
  rw [resume, Lexeme.splitFrom_quote]
  rfl

theorem step_of_isValue {awaited : Awaited} (h : awaited.IsValue) (lexeme : Lexeme)
    (harray : lexeme ≠ .closeArray) (hobject : lexeme ≠ .closeObject)
    (containers : List Container) :
    (Reading.open containers awaited).step lexeme = value containers lexeme := by
  have hclose : close containers lexeme = none := by
    unfold close
    split
    · exact absurd rfl harray
    · exact absurd rfl hobject
    · rfl
  rcases h with rfl | rfl
  · rfl
  · rw [step, hclose]
    rfl

end Reading

namespace Printed

theorem string (s : String) : Printed (quote s) (.string (.ok s)) := by
  intro containers awaited rest hawaited _
  rw [Reading.resume_quote, Reading.step_of_isValue hawaited (.string (.ok s)) nofun nofun]
  rfl

theorem exists_natural (n : Nat) :
    ∃ numeral : Numeral, numeral.Spells n ∧
      Printed (Json.number (.natural n)).chars (.number numeral) := by
  obtain ⟨numeral, hspells, hsplit⟩ := Lexeme.exists_splitFrom_toDigits n
  refine ⟨numeral, hspells, fun containers awaited rest hawaited hends => ?_⟩
  have hchars : (Json.number (.natural n)).chars = Nat.toDigits 10 n := by
    rw [chars, Number.text, Nat.toString_eq_ofList_toDigits, String.toList_ofList]
  rw [hchars, Reading.resume, hsplit rest hends, List.foldl_cons,
    Reading.step_of_isValue hawaited (.number numeral) nofun nofun]
  rfl

variable {α : Type}

theorem resume_items {item : α → Json} {draft : α → Draft} {xs : List α} (hne : xs ≠ [])
    (h : ∀ x ∈ xs, Printed (item x).chars (draft x)) (reversed : List Draft)
    (containers : List Container) {awaited : Awaited} (hawaited : awaited.IsValue)
    (rest : Content) :
    (Reading.open (.array reversed :: containers) awaited).resume
        (glyphs (charsOfItems (xs.map item)) ++ .char ']' :: rest) =
      (Reading.place (.array (reversed.reverse ++ xs.map draft) none) containers).resume rest := by
  induction xs generalizing reversed awaited with
  | nil => exact absurd rfl hne
  | cons x xs ih =>
    cases xs with
    | nil =>
      show (Reading.open _ awaited).resume (glyphs (item x).chars ++ _) = _
      rw [h x (.head _) _ _ _ hawaited (.inr ⟨']', by decide, rest, rfl⟩),
        Reading.resume_closeArray]
      show (Reading.place (.array (draft x :: reversed).reverse none) containers).resume rest = _
      rw [List.reverse_cons]
      rfl
    | cons y ys =>
      have hitems : charsOfItems ((x :: y :: ys).map item) =
          (item x).chars ++ ',' :: charsOfItems ((y :: ys).map item) := rfl
      rw [hitems, glyphs_append, glyphs_cons, List.append_assoc, List.cons_append,
        h x (.head _) _ _ _ hawaited (.inr ⟨',', by decide, _, rfl⟩), Reading.resume_comma]
      show (Reading.open (.array (draft x :: reversed) :: containers) .value).resume _ = _
      rw [ih (List.cons_ne_nil _ _) (fun z hz => h z (.tail _ hz)) _ (.inl rfl),
        List.reverse_cons, List.append_assoc]
      rfl

theorem array {item : α → Json} {draft : α → Draft} {xs : List α}
    (h : ∀ x ∈ xs, Printed (item x).chars (draft x)) :
    Printed (Json.array (xs.map item)).chars (.array (xs.map draft) none) := by
  intro containers awaited rest hawaited _
  have hchars : (Json.array (xs.map item)).chars = '[' :: charsOfItems (xs.map item) ++ [']'] := by
    rw [chars]
  rw [hchars, glyphs_append, glyphs_cons, List.append_assoc, List.cons_append,
    Reading.resume_openArray, Reading.step_of_isValue hawaited .openArray nofun nofun]
  show (Reading.open (.array [] :: containers) .valueOrClose).resume
    (glyphs (charsOfItems (xs.map item)) ++ .char ']' :: rest) = _
  by_cases hempty : xs = []
  · subst hempty
    rfl
  · exact resume_items hempty h [] containers (.inr rfl) rest

theorem resume_field {name : String} {value : Json} {draft : Draft}
    (hvalue : Printed value.chars draft) (reversed : List (Draft × Draft))
    (containers : List Container) {awaited : Awaited}
    (hawaited : awaited = .key ∨ awaited = .keyOrClose) {rest : Content}
    (hrest : Lexeme.Ends rest) :
    (Reading.open (.object reversed :: containers) awaited).resume
        (glyphs (quote name ++ ':' :: value.chars) ++ rest) =
      (Reading.place draft (.field reversed (.string (.ok name)) :: containers)).resume rest := by
  have hkey : (Reading.open (.object reversed :: containers) awaited).step (.string (.ok name)) =
      .open (.field reversed (.string (.ok name)) :: containers) .colon := by
    rcases hawaited with rfl | rfl <;> rfl
  rw [glyphs_append, glyphs_cons, List.append_assoc, List.cons_append, Reading.resume_quote, hkey,
    Reading.resume_colon]
  exact hvalue _ _ _ (.inl rfl) hrest

theorem resume_fields {fields : List (String × Json × Draft)} (hne : fields ≠ [])
    (h : ∀ f ∈ fields, Printed f.2.1.chars f.2.2) (reversed : List (Draft × Draft))
    (containers : List Container) {awaited : Awaited}
    (hawaited : awaited = .key ∨ awaited = .keyOrClose) (rest : Content) :
    (Reading.open (.object reversed :: containers) awaited).resume
        (glyphs (charsOfFields (fields.map fun f => (f.1, f.2.1))) ++ .char '\x7d' :: rest) =
      (Reading.place (.object (reversed.reverse ++ fields.map fun f => (.string (.ok f.1), f.2.2))
        none) containers).resume rest := by
  induction fields generalizing reversed awaited with
  | nil => exact absurd rfl hne
  | cons field fields ih =>
    obtain ⟨name, value, draft⟩ := field
    have hvalue : Printed value.chars draft := h _ (.head _)
    cases fields with
    | nil =>
      have hchars : charsOfFields ([(name, value, draft)].map fun f => (f.1, f.2.1)) =
          quote name ++ ':' :: value.chars := by
        rw [List.map_cons, List.map_nil, charsOfFields]
      rw [hchars, resume_field hvalue reversed containers hawaited
        (.inr ⟨'\x7d', by decide, rest, rfl⟩), Reading.resume_closeObject]
      show (Reading.place (.object ((.string (.ok name), draft) :: reversed).reverse none)
        containers).resume rest = _
      rw [List.reverse_cons]
      rfl
    | cons next others =>
      have hchars : charsOfFields (((name, value, draft) :: next :: others).map
          fun f => (f.1, f.2.1)) = quote name ++ ':' :: value.chars ++
            ',' :: charsOfFields ((next :: others).map fun f => (f.1, f.2.1)) := by
        rw [List.map_cons, List.map_cons, charsOfFields]
        exact nofun
      rw [hchars, glyphs_append, glyphs_cons, List.append_assoc, List.cons_append,
        resume_field hvalue reversed containers hawaited (.inr ⟨',', by decide, _, rfl⟩),
        Reading.resume_comma]
      show (Reading.open (.object ((.string (.ok name), draft) :: reversed) :: containers)
        .key).resume _ = _
      rw [ih (List.cons_ne_nil _ _) (fun f hf => h f (.tail _ hf)) _ (.inl rfl),
        List.reverse_cons, List.append_assoc]
      rfl

theorem object (fields : List (String × Json × Draft))
    (h : ∀ f ∈ fields, Printed f.2.1.chars f.2.2) :
    Printed (Json.object (fields.map fun f => (f.1, f.2.1))).chars
      (.object (fields.map fun f => (.string (.ok f.1), f.2.2)) none) := by
  intro containers awaited rest hawaited _
  have hchars : (Json.object (fields.map fun f => (f.1, f.2.1))).chars =
      '\x7b' :: charsOfFields (fields.map fun f => (f.1, f.2.1)) ++ ['\x7d'] := by
    rw [chars]
  rw [hchars, glyphs_append, glyphs_cons, List.append_assoc, List.cons_append,
    Reading.resume_openObject, Reading.step_of_isValue hawaited .openObject nofun nofun]
  show (Reading.open (.object [] :: containers) .keyOrClose).resume
    (glyphs (charsOfFields (fields.map fun f => (f.1, f.2.1))) ++ .char '\x7d' :: rest) = _
  by_cases hempty : fields = []
  · subst hempty
    rfl
  · exact resume_fields hempty h [] containers (.inr rfl) rest

end Printed

theorem Document.read_of_printed {cs : List Char} {draft : Draft} (h : Printed cs draft) :
    Document.read (glyphs cs) = ⟨draft, false⟩ := by
  have hresume := h [] .value [] (.inl rfl) (.inl rfl)
  rw [List.append_nil] at hresume
  rw [Document.read, show (Lexeme.split (glyphs cs)).foldl Reading.step Reading.start =
    (Reading.open [] .value).resume (glyphs cs) from rfl, hresume]
  rfl

end LayeredTags.Json
