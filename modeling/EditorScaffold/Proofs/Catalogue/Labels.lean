import EditorScaffold.Catalogue.Manifest
import EditorScaffold.Proofs.Text.Position

/-! # Labels of malformed manifests

A manifest is a record, and a record is read so that every refusal has a place (`Json.Reader.position_of_readAll`).
The label for this place is the last byte that was read, or the start of a line of which nothing was read, and lies in
the text or at its end (`label_marks_last_byte`). A text in memory is short enough for this; places that no reader tells
may lie beyond what a word can count, and have no label. -/

namespace EditorScaffold

namespace Json.Reader

variable {α β : Type} {r : Reader α} {t : Text} {e : Error}

/-! ### Places of refusals -/

/-- **Every refusal of a reader has a place.** -/
def Places (r : Reader α) : Prop := ∀ c stop, r c = .error stop → stop.place.isSome = true

theorem Places.pure (a : α) : Places (pure a) := nofun

theorem Places.bind {f : α → Reader β} (hr : Places r) (hf : ∀ a, Places (f a)) : Places (r >>= f) := by
  intro c stop h
  change (r c >>= fun p => f p.1 p.2) = _ at h
  cases hc : r c with
  | ok p =>
    rw [hc] at h
    exact hf p.1 p.2 stop h
  | error stop' =>
    rw [hc] at h
    cases h
    exact hr c stop hc

theorem places_placed (r : Reader α) : Places (placed r) := by
  intro c stop h
  unfold placed at h
  split at h
  · cases h
    rfl
  · next hplace =>
    obtain ⟨fault, place, c'⟩ := stop
    cases place with
    | none => exact absurd h (hplace fault c')
    | some n => rfl

theorem places_stopPeeked (fault : Fault) : Places (stopPeeked fault : Reader α) := by
  rintro c stop ⟨⟩
  rfl

theorem places_next? : Places next? := nofun

theorem places_finish : Places finish := by
  refine places_next?.bind fun c => ?_
  cases c with
  | none => exact .pure ()
  | some c => exact places_stopPeeked _

/-- **Every error in a text has a place**, if every refusal of the reader has one. -/
theorem position_of_readAll (hr : Places r) (h : r.readAll t = .error e) :
    ∃ i ≤ t.byteSize, e.position = some (.after t.bytes i) := by
  have hplaces : Places (r <* finish) := hr.bind fun a => places_finish.bind fun _ => .pure a
  unfold readAll at h
  split at h
  · cases h
  · next stop hstop =>
    cases h
    obtain ⟨i, hi⟩ := Option.isSome_iff_exists.1 (hplaces _ _ hstop)
    refine ⟨min i t.bytes.length, ?_, ?_⟩
    · rw [← Text.length_bytes]
      exact Nat.min_le_right _ _
    · rw [Position.after_min, hi]
      rfl

end Json.Reader

namespace Manifest

variable {t : Text} {cause : Json.Error} {label : Option ℕ}

/-- A manifest that is malformed could not be read as a record, and its label is that of the place. -/
theorem ofText_eq_malformed (h : ofText t = .error (.malformed cause label)) :
    entries t = .error cause ∧ label = labelOf t cause := by
  unfold ofText at h
  split at h
  · next es _ =>
    unfold ofEntries at h
    split at h <;> cases h
  · next e he =>
    cases h
    exact ⟨he, rfl⟩

/-- The place of an error, and its label. -/
theorem exists_label?_eq (h : ofText t = .error (.malformed cause label)) :
    ∃ i ≤ t.byteSize, cause.position = some (.after t.bytes i) ∧
      label = (Position.after t.bytes i).label? t.bytes := by
  obtain ⟨hentries, rfl⟩ := ofText_eq_malformed h
  obtain ⟨i, hi, hposition⟩ := Json.Reader.position_of_readAll (Json.Reader.places_placed _) hentries
  refine ⟨i, hi, hposition, ?_⟩
  rw [labelOf, hposition]

/-- **Labels mark the last byte that was read.** The place of a reader that has read some bytes of a text is labelled by
the last of them, or by their number where the place is the start of a line; the start of its line and its column do not
lead out of the text. No place at all is labelled outside the text, whether lines are cut at bytes or at characters, but
a place whose offset is not a word has no label. So a malformed manifest has a label, that of the place which is told,
and it lies in the text or at its end. -/
theorem label_marks_last_byte (t : Text) (ht : t.byteSize ≤ Text.maxByteSize) :
    (∀ i ≤ t.byteSize,
      Position.lineStart t.bytes (Position.after t.bytes i).line + (Position.after t.bytes i).column = i ∧
      (Position.after t.bytes i).label? t.bytes = some (if (Position.after t.bytes i).column = 0 then i else i - 1)) ∧
    (∀ p : Position, (∀ n, p.label? t.bytes = some n → n ≤ t.byteSize) ∧
      (p.line = 0 → p.label? t.bytes = some 0) ∧
      (p.line ≠ 0 → p.label? t.bytes =
        let offset :=
          min (Text.byteSize ((t.lines.take (p.line - 1)).flatMap (· ++ ['\n']))) t.byteSize + (p.column - 1)
        if offset < Text.wordBound then some (min offset t.byteSize) else none)) ∧
    ∀ cause label, ofText t = .error (.malformed cause label) →
      ∃ n ≤ t.byteSize, label = some n ∧ ∃ i ≤ t.byteSize, cause.position = some (.after t.bytes i) ∧
        n = if (Position.after t.bytes i).column = 0 then i else i - 1 := by
  have hsize : t.bytes.length = t.byteSize := Text.length_bytes t
  have hword : t.bytes.length < Text.wordBound := hsize ▸ ht.trans_lt (by decide)
  refine ⟨fun i hi => ?_, fun p => ⟨fun n hn => ?_, fun hline => ?_, fun hline => ?_⟩, fun cause label h => ?_⟩
  · rw [← hsize] at hi
    exact ⟨Position.lineStart_add_column hi, Position.label?_after hword hi⟩
  · exact hsize ▸ Position.le_of_label? hn
  · rw [Position.label?_eq, if_pos hline]
  · exact Position.label?_bytes hline t
  · obtain ⟨i, hi, hposition, rfl⟩ := exists_label?_eq h
    have hlabel := Position.label?_after hword (hsize ▸ hi)
    exact ⟨_, hsize ▸ Position.le_of_label? hlabel, hlabel, i, hi, hposition, rfl⟩

/-- A manifest with a bracket in its third line that closes nothing. -/
def strayText : Text := "\x7b\"\u00e9\":1,\r\n\n]".toList

/-- The bracket is the twelfth byte, which is at offset 11. The greatest column of the second line has no label, as it
leads beyond a word. -/
theorem label_of_strayText :
    strayText.byteSize ≤ Text.maxByteSize ∧ 12 ≤ strayText.byteSize ∧
    (Position.after strayText.bytes 12).label? strayText.bytes = some 11 ∧
    ofText strayText = .error (.malformed ⟨.keyNotString, some ⟨3, 1⟩⟩ (some 11)) ∧ 11 ≤ strayText.byteSize ∧
    Position.label? (Text.bytes "a\n".toList) ⟨2, Text.wordBound - 1⟩ = none := by
  have hread : ofText strayText = .error (.malformed ⟨.keyNotString, some ⟨3, 1⟩⟩ (some 11)) := rfl
  have hmax : strayText.byteSize ≤ Text.maxByteSize := by decide
  have hsize : 12 ≤ strayText.byteSize := by decide
  obtain ⟨hplaces, -, hlabels⟩ := label_marks_last_byte strayText hmax
  obtain ⟨-, hbeyond, -⟩ := label_marks_last_byte "a\n".toList (by decide)
  obtain ⟨n, hn, hlabel, -⟩ := hlabels _ _ hread
  refine ⟨hmax, hsize, (hplaces 12 hsize).2, hread, Option.some.inj hlabel ▸ hn, ?_⟩
  rw [(hbeyond _).2.2 (by decide)]
  decide

-- a manifest that ends at the start of a line has its label there
example : ofText "\x7b\n".toList = .error (.malformed ⟨.endOfBracket .object, some ⟨2, 0⟩⟩ (some 2)) := rfl

end Manifest

end EditorScaffold
