import LayeredTags.Proofs.Node.Walk

/-!
# Well-bracketed sources

A source is well bracketed if every close marker names the innermost open block and no block is left
open at the end. These are the sources that are read without a mistake, and no block of their trees
is unclosed.

* `WellBracketed`: well-bracketed tokens, read with a stack of the names of open blocks.
* `diagnostics_parse_eq_nil_iff`: the sources that are read without a mistake.
* `isUnclosed_of_wellBracketed`: their trees hold closed blocks only.
-/

namespace LayeredTags

/-- Behind open blocks of the given names, the innermost first, every close marker names the
innermost open block, and no block is left open at the end. -/
def WellBracketed (names : List String) : List Token → Prop
  | [] => names = []
  | .opening name _ :: rest => WellBracketed (name :: names) rest
  | .closing name _ :: rest => names.head? = some name ∧ WellBracketed names.tail rest
  | .text _ :: rest | .value _ _ :: rest => WellBracketed names rest

instance decidableWellBracketed : ∀ (names : List String) (tokens : List Token),
    Decidable (WellBracketed names tokens)
  | names, [] => inferInstanceAs (Decidable (names = []))
  | names, .opening name _ :: rest => decidableWellBracketed (name :: names) rest
  | names, .closing name _ :: rest =>
    have := decidableWellBracketed names.tail rest
    inferInstanceAs (Decidable (names.head? = some name ∧ WellBracketed names.tail rest))
  | names, .text _ :: rest => decidableWellBracketed names rest
  | names, .value _ _ :: rest => decidableWellBracketed names rest

theorem wellBracketed_iff {names : List String} {tokens : List Token} :
    WellBracketed names tokens ↔ mistakesOf names tokens = [] ∧ namesBehind names tokens = [] := by
  induction tokens generalizing names with
  | nil =>
    rw [WellBracketed, mistakesOf, namesBehind]
    simp only [true_and]
  | cons t rest ih =>
    cases t with
    | text content => exact ih
    | value name raw => exact ih
    | opening name raw => exact ih
    | closing name source =>
      rw [WellBracketed, ih, mistakesOf, namesBehind, Token.mistakes, Token.openNames]
      by_cases hhead : names.head? = some name
      · simp only [hhead, if_true, true_and, List.nil_append]
      · simp only [hhead, if_false, false_and, List.cons_append, reduceCtorEq]

theorem diagnostics_parse_eq_nil_iff {source : String} :
    (parse source).diagnostics = [] ↔ WellBracketed [] (tokenize source) := by
  rw [parse, ParseOutcome.ofTokens, TreeBuilder.diagnostics_finish,
    TreeBuilder.mistakes_foldl_step, TreeBuilder.names_foldl_step, wellBracketed_iff,
    List.append_eq_nil_iff, List.map_eq_nil_iff]
  rfl

def Node.isUnclosed : Node → Bool
  | block _ closed _ => !closed
  | root _ | text _ | value _ | parent _ => false

namespace TreeBuilder

theorem granted_closed : Granted fun node => node.isUnclosed = false where
  text _ := rfl
  block _ _ _ := rfl
  value _ _ := by split <;> rfl

end TreeBuilder

theorem isUnclosed_of_wellBracketed {source : String}
    (h : WellBracketed [] (tokenize source)) :
    ∀ node ∈ (parse source).root.subtrees, node.isUnclosed = false := by
  have hnames : ((tokenize source).foldl TreeBuilder.step .empty).names = [] :=
    TreeBuilder.names_foldl_step _ ▸ (wellBracketed_iff.mp h).2
  refine (TreeBuilder.everywhere_empty.foldl_step TreeBuilder.granted_closed _).finish
    (fun _ => rfl) fun block hblock => ?_
  rw [TreeBuilder.names_eq_nil_iff.mp hnames] at hblock
  cases hblock

end LayeredTags
