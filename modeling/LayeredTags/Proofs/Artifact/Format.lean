import LayeredTags.Artifact.Format
import LayeredTags.Proofs.Json.Draft

/-!
# Artifacts read what was written

* `Artifact.read_write`: the text of an artifact whose time a clock can represent reads as that
  artifact.
* `Artifact.of_read_write`: it reads as no other one, and not at all if its time is beyond the
  clock.
* `Artifact.eq_of_write_eq`: no two artifacts have one text, whatever their times.
* `Artifact.write_read`: the format keeps everything.

Proof idea. Every part of the object of an artifact is printed as one draft, and the reader of that
part yields it from the draft; only the time may be refused.
-/

namespace LayeredTags

open Json (Draft Fault Numeral Printed)
open Json.Decode

namespace Json.Decode

theorem list_map {α : Type} {decode : Draft → Except Fault α} {draft : α → Draft}
    (h : ∀ x, decode (draft x) = .ok x) (xs : List α) :
    list decode (.array (xs.map draft) none) = .ok xs := by
  have hitems : (xs.map draft).mapM decode = .ok xs := by
    induction xs with
    | nil => rfl
    | cons x xs ih =>
      rw [List.map_cons, List.mapM_cons, h, ih]
      rfl
  rw [list, hitems]
  rfl

theorem natural_of_spells {n : Numeral} {value bound : Nat} (h : n.Spells value)
    (hvalue : value < bound) (hbound : bound ≤ UInt64.size) :
    natural bound (.number n) = .ok value := by
  have hnumber : n.number? = some (.natural value) := by
    rw [Numeral.number?, h.noFraction, h.noExponent, h.positive, h.digits, if_pos]
    exact ⟨rfl, rfl, rfl, by omega⟩
  simp only [natural, hnumber, if_pos hvalue]

theorem eq_of_natural_of_spells {n : Numeral} {value bound k : Nat} (h : n.Spells value)
    (hread : natural bound (.number n) = .ok k) : k = value := by
  rw [natural] at hread
  split at hread
  · rename_i found hnumber
    split at hread
    · obtain rfl := Except.ok.inj hread
      rw [Numeral.number?, h.noFraction, h.noExponent, h.positive, h.digits] at hnumber
      split at hnumber
      · exact (Number.natural.inj (Option.some.inj hnumber)).symm
      · simp at hnumber
    · cases hread
  · cases hread
  · cases hread

end Json.Decode

namespace Instant

def draft (seconds nanos : Numeral) : Draft :=
  .object [(.string (.ok "secs_since_epoch"), .number seconds),
    (.string (.ok "nanos_since_epoch"), .number nanos)] none

variable {t : Instant} {seconds nanos : Numeral}

theorem seconds_eq : t.seconds = t.sinceEpoch / 1000000000 :=
  Int.fdiv_eq_ediv_of_nonneg _ (by decide)

theorem nanosecond_eq : t.nanosecond = (t.sinceEpoch % 1000000000).toNat :=
  congrArg Int.toNat (Int.fmod_eq_emod_of_nonneg _ (by decide))

theorem nanosecond_lt : t.nanosecond < perSecond := by
  rw [nanosecond_eq, perSecond]
  omega

theorem ofParts_seconds_nanosecond (h : ¬ t.sinceEpoch < 0) :
    ofParts t.seconds.toNat t.nanosecond = t := by
  rw [seconds_eq, nanosecond_eq, ofParts, perSecond]
  obtain ⟨n⟩ := t
  simp only [mk.injEq] at *
  omega

theorem decode_draft : decode (draft seconds nanos) =
    (decodeSeconds (.number seconds)).bind fun s => (decodeNanos (.number nanos)).bind fun n =>
      ofClock s n := by
  cases hs : decodeSeconds (.number seconds) with
  | error e =>
    simp [decode, draft, fold, decodeField, Json.nameOf, fill, hs, bind, Except.bind, Except.map]
  | ok s =>
    cases hn : decodeNanos (.number nanos) <;>
      simp [decode, draft, fold, decodeField, Json.nameOf, fill, hs, hn, bind, Except.bind,
        Except.map, unlessStopped, required, pure, Except.pure]

theorem decode_draft_eq_ok (ht : ¬ t.sinceEpoch < 0) (hs : seconds.Spells t.seconds.toNat)
    (hn : nanos.Spells t.nanosecond) (hclock : t.seconds < secondsBound) :
    decode (draft seconds nanos) = .ok t := by
  have hnanos := nanosecond_lt (t := t)
  rw [seconds_eq] at hclock
  simp only [secondsBound, perSecond] at hclock hnanos
  have hseconds : decodeSeconds (.number seconds) = .ok t.seconds.toNat :=
    natural_of_spells hs (by rw [seconds_eq, wordBound]; omega) (Nat.le_refl _)
  have hnano : decodeNanos (.number nanos) = .ok t.nanosecond :=
    natural_of_spells hn (Nat.lt_trans hnanos (by decide)) (by decide)
  rw [decode_draft, hseconds, hnano]
  show ofClock t.seconds.toNat t.nanosecond = .ok t
  rw [ofClock, if_pos, ofParts_seconds_nanosecond ht]
  rw [seconds_eq, secondsBound, perSecond]
  omega

theorem of_decode_draft {u : Instant} (ht : ¬ t.sinceEpoch < 0)
    (hs : seconds.Spells t.seconds.toNat) (hn : nanos.Spells t.nanosecond)
    (hread : decode (draft seconds nanos) = .ok u) : u = t ∧ t.seconds < secondsBound := by
  rw [decode_draft] at hread
  cases hseconds : decodeSeconds (.number seconds) with
  | error e => rw [hseconds] at hread; cases hread
  | ok s =>
    cases hnanos : decodeNanos (.number nanos) with
    | error e => rw [hseconds, hnanos] at hread; cases hread
    | ok n =>
      obtain rfl := eq_of_natural_of_spells hs hseconds
      obtain rfl := eq_of_natural_of_spells hn hnanos
      rw [hseconds, hnanos] at hread
      change ofClock t.seconds.toNat t.nanosecond = .ok u at hread
      rw [ofClock] at hread
      split at hread
      · rename_i hclock
        have hlt : t.seconds.toNat < secondsBound :=
          Nat.lt_of_le_of_lt (Nat.le_add_right ..) hclock
        exact ⟨by rw [← Except.ok.inj hread, ofParts_seconds_nanosecond ht], by omega⟩
      · cases hread

theorem eq_of_spells {u : Instant} (ht : ¬ t.sinceEpoch < 0) (hu : ¬ u.sinceEpoch < 0)
    (hts : seconds.Spells t.seconds.toNat) (hus : seconds.Spells u.seconds.toNat)
    (htn : nanos.Spells t.nanosecond) (hun : nanos.Spells u.nanosecond) : t = u := by
  rw [← ofParts_seconds_nanosecond ht, ← ofParts_seconds_nanosecond hu, ← hts.digits,
    ← hus.digits, ← htn.digits, ← hun.digits]

theorem exists_printed {j : Json} (h : t.encode? = some j) :
    ¬ t.sinceEpoch < 0 ∧ ∃ seconds nanos : Numeral, seconds.Spells t.seconds.toNat ∧
      nanos.Spells t.nanosecond ∧ Printed j.chars (draft seconds nanos) := by
  rw [encode?] at h
  split at h
  · cases h
  · rename_i ht
    obtain rfl := Option.some.inj h
    obtain ⟨seconds, hs, hseconds⟩ := Printed.exists_natural t.seconds.toNat
    obtain ⟨nanos, hn, hnanos⟩ := Printed.exists_natural t.nanosecond
    refine ⟨ht, seconds, nanos, hs, hn, Printed.object
      [("secs_since_epoch", .number (.natural t.seconds.toNat), .number seconds),
        ("nanos_since_epoch", .number (.natural t.nanosecond), .number nanos)] ?_⟩
    simp only [List.forall_mem_cons]
    exact ⟨hseconds, hnanos, nofun⟩

end Instant

namespace Diagnostic

def draft (d : Diagnostic) : Draft :=
  .object [(.string (.ok "kind"), .string (.ok d.kind.name)),
    (.string (.ok "tag"), .string (.ok d.tag))] none

theorem decode_draft (d : Diagnostic) : decode d.draft = .ok d := by
  have hkind : decodeKind (.string (.ok d.kind.name)) = .ok d.kind := by
    show required (DiagnosticKind.ofName? d.kind.name) = _
    rw [DiagnosticKind.ofName?_name, required]
  simp [decode, draft, fold, decodeField, Json.nameOf, fill, hkind, text, bind, Except.bind,
    Except.map, unlessStopped, required, pure, Except.pure]

theorem printed (d : Diagnostic) : Printed d.encode.chars d.draft := by
  refine Printed.object [("kind", .string d.kind.name, .string (.ok d.kind.name)),
    ("tag", .string d.tag, .string (.ok d.tag))] ?_
  simp only [List.forall_mem_cons, Json.chars]
  exact ⟨.string _, .string _, List.forall_mem_nil _⟩

end Diagnostic

namespace Artifact

def draftPaths (paths : List Path) : Draft :=
  .array (paths.map fun p => .string (.ok p.text)) none

theorem decodePaths_draftPaths (paths : List Path) :
    decodePaths (draftPaths paths) = .ok paths := by
  have hpath : ∀ p : Path, decodePath (.string (.ok p.text)) = .ok p := fun _ => rfl
  exact list_map hpath paths

theorem printed_encodePaths (paths : List Path) :
    Printed (encodePaths paths).chars (draftPaths paths) :=
  Printed.array fun p _ => by
    rw [Json.chars]
    exact .string _

def draft (a : Artifact) (seconds nanos : Numeral) : Draft :=
  .object [(.string (.ok "source_identity"), draftPaths a.identity),
    (.string (.ok "code"), .string (.ok a.code)),
    (.string (.ok "recorded_mtime"), Instant.draft seconds nanos),
    (.string (.ok "existing_sources"), draftPaths a.existing),
    (.string (.ok "diagnostics"), .array (a.diagnostics.map Diagnostic.draft) none)] none

variable {a b : Artifact} {content : String} {seconds nanos : Numeral}

theorem decode_draft : decode (a.draft seconds nanos) =
    (Instant.decode (Instant.draft seconds nanos)).map fun t => { a with recorded := t } := by
  have hdiagnostics : decodeDiagnostics (.array (a.diagnostics.map Diagnostic.draft) none) =
      .ok a.diagnostics := list_map Diagnostic.decode_draft a.diagnostics
  cases hrecorded : Instant.decode (Instant.draft seconds nanos) <;>
    simp [decode, draft, fold, decodeField, Json.nameOf, fill, text, hrecorded, hdiagnostics,
      decodePaths_draftPaths, Fields.none, bind, Except.bind, Except.map, unlessStopped, required,
      pure, Except.pure]

theorem draftPaths_injective : Function.Injective draftPaths := by
  intro paths others h
  have hread := congrArg decodePaths h
  rw [decodePaths_draftPaths, decodePaths_draftPaths] at hread
  exact Except.ok.inj hread

/-- The draft of an artifact shows all of it but the time, for which it holds two numerals. -/
theorem draft_injective {seconds' nanos' : Numeral}
    (h : a.draft seconds nanos = b.draft seconds' nanos') :
    a.identity = b.identity ∧ a.code = b.code ∧ a.existing = b.existing ∧
      a.diagnostics = b.diagnostics ∧ seconds = seconds' ∧ nanos = nanos' := by
  simp only [draft, Instant.draft, Draft.object.injEq, Draft.string.injEq, Draft.number.injEq,
    Draft.array.injEq, List.cons.injEq, Prod.mk.injEq, Except.ok.injEq, true_and, and_true] at h
  obtain ⟨hidentity, hcode, ⟨hseconds, hnanos⟩, hexisting, hdiagnostics⟩ := h
  have hinjective : Function.Injective Diagnostic.draft := by
    intro d e hde
    have hread := congrArg Diagnostic.decode hde
    rw [Diagnostic.decode_draft, Diagnostic.decode_draft] at hread
    exact Except.ok.inj hread
  exact ⟨draftPaths_injective hidentity, hcode, draftPaths_injective hexisting,
    (List.map_inj_right fun _ _ h => hinjective h).mp hdiagnostics, hseconds, hnanos⟩

theorem exists_write (h : ¬ a.recorded.sinceEpoch < 0) : ∃ text, a.write = .ok text := by
  rw [write, encode?, Instant.encode?, if_neg h]
  exact ⟨_, rfl⟩

theorem exists_printed (h : a.write = .ok content) :
    ¬ a.recorded.sinceEpoch < 0 ∧ ∃ seconds nanos : Numeral,
      seconds.Spells a.recorded.seconds.toNat ∧ nanos.Spells a.recorded.nanosecond ∧
        Json.Document.read (.ofString content) = ⟨a.draft seconds nanos, false⟩ := by
  rw [write, encode?] at h
  cases hrecorded : a.recorded.encode? with
  | none => rw [hrecorded] at h; cases h
  | some recorded =>
    rw [hrecorded] at h
    obtain rfl := Except.ok.inj h
    obtain ⟨htime, seconds, nanos, hs, hn, hprinted⟩ := Instant.exists_printed hrecorded
    refine ⟨htime, seconds, nanos, hs, hn, ?_⟩
    rw [Content.ofString, Json.print, String.toList_ofList]
    refine Json.Document.read_of_printed (Printed.object
      [("source_identity", encodePaths a.identity, draftPaths a.identity),
        ("code", .string a.code, .string (.ok a.code)),
        ("recorded_mtime", recorded, Instant.draft seconds nanos),
        ("existing_sources", encodePaths a.existing, draftPaths a.existing),
        ("diagnostics", .array (a.diagnostics.map Diagnostic.encode),
          .array (a.diagnostics.map Diagnostic.draft) none)] ?_)
    simp only [List.forall_mem_cons]
    refine ⟨printed_encodePaths _, ?_, hprinted, printed_encodePaths _, ?_, nofun⟩
    · rw [Json.chars]
      exact .string _
    · exact .array fun d _ => d.printed

theorem read_nil : read [] = .error .truncated := rfl

theorem read_write (h : a.write = .ok content)
    (hclock : a.recorded.seconds < Instant.secondsBound) : read (.ofString content) = .ok a := by
  obtain ⟨htime, seconds, nanos, hs, hn, hread⟩ := exists_printed h
  rw [read, Json.readWith, hread]
  simp only [decode_draft, Instant.decode_draft_eq_ok htime hs hn hclock]
  rfl

theorem of_read_write (h : a.write = .ok content) (hread : read (.ofString content) = .ok b) :
    b = a ∧ a.recorded.seconds < Instant.secondsBound := by
  obtain ⟨htime, seconds, nanos, hs, hn, hdocument⟩ := exists_printed h
  rw [read, Json.readWith, hdocument] at hread
  simp only [decode_draft] at hread
  cases hrecorded : Instant.decode (Instant.draft seconds nanos) with
  | error e => rw [hrecorded] at hread; cases hread
  | ok t =>
    obtain ⟨rfl, hclock⟩ := Instant.of_decode_draft htime hs hn hrecorded
    rw [hrecorded] at hread
    exact ⟨(Except.ok.inj hread).symm, hclock⟩

theorem eq_of_read_write (h : a.write = .ok content) (hread : read (.ofString content) = .ok b) :
    b = a :=
  (of_read_write h hread).1

theorem eq_of_write_eq (ha : a.write = .ok content) (hb : b.write = .ok content) : a = b := by
  obtain ⟨hatime, seconds, nanos, has, han, hadraft⟩ := exists_printed ha
  obtain ⟨hbtime, seconds', nanos', hbs, hbn, hbdraft⟩ := exists_printed hb
  have hdraft := congrArg Json.Document.value (hadraft.symm.trans hbdraft)
  obtain ⟨hidentity, hcode, hexisting, hdiagnostics, rfl, rfl⟩ := draft_injective hdraft
  have hrecorded := Instant.eq_of_spells hatime hbtime has hbs han hbn
  obtain ⟨identity, code, recorded, existing, diagnostics⟩ := a
  obtain ⟨identity', code', recorded', existing', diagnostics'⟩ := b
  simp only at hidentity hcode hrecorded hexisting hdiagnostics
  rw [hidentity, hcode, hrecorded, hexisting, hdiagnostics]

/-- **The file format keeps everything.** An artifact has a text unless its time lies before 1970.
From that text the artifact itself is read, with every field as it was, as long as its time is one
that a clock can represent; and no other artifact has that text. -/
theorem write_read (a : Artifact) :
    ((∃ fault, a.write = .error fault) ↔ a.recorded.sinceEpoch < 0) ∧
      ∀ text, a.write = .ok text →
        (read (.ofString text) = .ok a ↔ a.recorded.seconds < Instant.secondsBound) ∧
        ∀ b : Artifact, b.write = .ok text → b = a := by
  refine ⟨⟨?_, fun h => ?_⟩, fun text h =>
    ⟨⟨fun hread => (of_read_write h hread).2, read_write h⟩, fun b hb => eq_of_write_eq hb h⟩⟩
  · rintro ⟨fault, hfault⟩
    by_contra htime
    obtain ⟨text, htext⟩ := exists_write htime
    rw [hfault] at htext
    cases htext
  · exact ⟨.mismatched, by rw [write, encode?, Instant.encode?, if_pos h]; rfl⟩

/-- An artifact with quotes, backslashes, controls and letters of several alphabets, at the last
moment that a clock can represent. -/
def lastArtifact : Artifact where
  identity := [⟨"a \"b\"\\c/index.tpl"⟩, ⟨"themes//./ü.tpl"⟩, ⟨""⟩]
  code := "π\x01\r\n\t\x7f/"
  recorded := .ofParts 9223372036854775807 999999999
  existing := [⟨"themes//./ü.tpl"⟩]
  diagnostics := [⟨.unknownBlockTag, "木\x1f"⟩, ⟨.parentWithoutLayer, ""⟩]

theorem write_read_lastArtifact :
    ¬ lastArtifact.recorded.sinceEpoch < 0 ∧ ∃ text, lastArtifact.write = .ok text ∧
      read (.ofString text) = .ok lastArtifact := by
  have htime : ¬ lastArtifact.recorded.sinceEpoch < 0 := by decide
  obtain ⟨text, htext⟩ := exists_write htime
  exact ⟨htime, text, htext, ((write_read lastArtifact).2 text htext).1.mpr (by decide)⟩

end Artifact

end LayeredTags
