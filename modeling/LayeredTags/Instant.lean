/-!
# Points in time

* `Instant`: nanoseconds since the start of 1970, of either sign.
* `Instant.ofParts`, `Instant.seconds`, `Instant.nanosecond`: the form as seconds and nanoseconds.
-/

namespace LayeredTags

/-- Nanoseconds since the start of 1970; earlier points are negative. -/
structure Instant where
  sinceEpoch : Int
  deriving DecidableEq, Repr, Inhabited

namespace Instant

def perSecond : Nat := 1000000000

instance : LE Instant := ⟨fun a b => a.sinceEpoch ≤ b.sinceEpoch⟩

instance : LT Instant := ⟨fun a b => a.sinceEpoch < b.sinceEpoch⟩

instance (a b : Instant) : Decidable (a ≤ b) :=
  inferInstanceAs (Decidable (a.sinceEpoch ≤ b.sinceEpoch))

instance (a b : Instant) : Decidable (a < b) :=
  inferInstanceAs (Decidable (a.sinceEpoch < b.sinceEpoch))

instance : Max Instant := ⟨fun a b => if a ≤ b then b else a⟩

/-- Seconds since 1970 with nanoseconds added, also to a negative number of seconds. -/
def ofParts (seconds : Int) (nanos : Nat) : Instant :=
  ⟨seconds * perSecond + nanos⟩

def seconds (t : Instant) : Int :=
  t.sinceEpoch.fdiv perSecond

/-- Nanoseconds after the whole second. -/
def nanosecond (t : Instant) : Nat :=
  (t.sinceEpoch.fmod perSecond).toNat

def latest? : List Instant → Option Instant
  | [] => none
  | t :: ts =>
    match latest? ts with
    | none => some t
    | some u => some (max t u)

theorem le_refl (a : Instant) : a ≤ a := Int.le_refl _

theorem le_trans {a b c : Instant} (h : a ≤ b) (h' : b ≤ c) : a ≤ c := Int.le_trans h h'

theorem lt_of_not_le {a b : Instant} (h : ¬ a ≤ b) : b < a := Int.lt_of_not_ge h

theorem not_le_of_lt {a b : Instant} (h : a < b) : ¬ b ≤ a := Int.not_le_of_gt h

theorem max_def (a b : Instant) : max a b = if a ≤ b then b else a := rfl

theorem le_max_left (a b : Instant) : a ≤ max a b := by
  rw [max_def]
  split
  · assumption
  · exact le_refl a

theorem le_max_right (a b : Instant) : b ≤ max a b := by
  rw [max_def]
  split
  · exact le_refl b
  · exact Int.le_of_lt (lt_of_not_le ‹_›)

end Instant

end LayeredTags
