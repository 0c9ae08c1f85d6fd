import FirmScan.Report
import FirmScan.Proofs.Json.RoundTrip

/-!
# JSON reports lose nothing

**Theorem (`json_loses_nothing`).** Both JSON texts of a report are read as one and the same value,
and either text belongs to that report alone, among all reports of the four kinds.

The value of a report is `Printable`, so that its texts are read back (`Json.parse?_pretty`,
`Json.parse?_compact`), and it determines the report (`Report.toJson_inj`). The latter goes down the
fields: each kind of leaf has one spelling for each value, and what is absent is `null`, which
spells nothing else. The codes of problems are the one case that needs care, because one of them
ends in a text of the user's: its stem begins like no other code (`Problem.code_inj`).
-/

namespace FirmScan

/-! ## Leaves -/

@[simp] theorem Address.text_inj {a b : Address} : a.text = b.text ↔ a = b := by
  rw [Address.text, Address.text, Numeral.hex8_inj, UInt64.toNat_inj]

@[simp] theorem Word.text_inj {v w : Word} : Word.text v = Word.text w ↔ v = w := by
  rw [Word.text, Word.text, Numeral.hex8_inj, UInt32.toNat_inj]

@[simp] theorem Mode.name_inj {m n : Mode} : m.name = n.name ↔ m = n := by
  cases m <;> cases n <;> decide

@[simp] theorem Access.name_inj {k l : Access} : k.name = l.name ↔ k = l := by
  cases k <;> cases l <;> decide

/-- No code that stands alone begins with the stem that a text of the user's follows. -/
@[simp] theorem Problem.code_inj {p q : Problem} : p.code = q.code ↔ p = q := by
  constructor
  · intro h
    rw [← String.toList_inj] at h
    cases p <;> cases q <;> simp [Problem.code] at h ⊢
    exact String.toList_inj.1 h
  · intro h
    rw [h]

namespace Json

/-- What is absent is told apart from what is there. -/
@[simp] theorem ofOption_inj {α : Type} {f : α → Json} (hf : ∀ a b, f a = f b ↔ a = b)
    (hnull : ∀ a, f a ≠ .null) {o o' : Option α} : ofOption f o = ofOption f o' ↔ o = o' := by
  cases o with
  | none => cases o' <;> simp [ofOption, (hnull _).symm]
  | some a => cases o' <;> simp [ofOption, hf, hnull]

@[simp] theorem strings_inj {ss ss' : List String} : strings ss = strings ss' ↔ ss = ss' := by
  rw [strings, strings, Json.array.injEq]
  exact List.map_inj_right (by simp)

/-- How many fields an object has. -/
def fieldCount : Json → Nat
  | .object fields => fields.length
  | _ => 0

end Json

/-! ## Reports -/

@[simp] theorem SlotReport.length_jsonFields (r : SlotReport) : r.jsonFields.length = 7 := rfl

theorem SlotReport.jsonFields_inj {r r' : SlotReport} : r.jsonFields = r'.jsonFields ↔ r = r' := by
  have hcodes {ps qs : List Problem} : ps.map (·.code) = qs.map (·.code) ↔ ps = qs :=
    List.map_inj_right fun _ _ => Problem.code_inj.1
  obtain ⟨slot, address, raw, mode, target, notes, problems⟩ := r
  obtain ⟨slot', address', raw', mode', target', notes', problems'⟩ := r'
  simp [SlotReport.jsonFields, UInt32.toNat_inj, hcodes]

theorem SlotReport.toJson_inj {r r' : SlotReport} : r.toJson = r'.toJson ↔ r = r' := by
  rw [SlotReport.toJson, SlotReport.toJson, Json.object.injEq, SlotReport.jsonFields_inj]

theorem ScanReport.toJson_inj {r r' : ScanReport} : r.toJson = r'.toJson ↔ r = r' := by
  have hitems {rs rs' : List SlotReport} : rs.map (·.toJson) = rs'.map (·.toJson) ↔ rs = rs' :=
    List.map_inj_right fun _ _ => SlotReport.toJson_inj.1
  obtain ⟨start, count, total, valid, invalid, items⟩ := r
  obtain ⟨start', count', total', valid', invalid', items'⟩ := r'
  simp [ScanReport.toJson, UInt32.toNat_inj, hitems, and_assoc]

theorem LabelReport.toJson_inj {r r' : LabelReport} : r.toJson = r'.toJson ↔ r = r' := by
  constructor
  · intro h
    rw [LabelReport.toJson, LabelReport.toJson, Json.object.injEq] at h
    -- the fields of the slot are as many in either report
    obtain ⟨hslot, hrest⟩ := List.append_inj h (by simp)
    obtain ⟨slot, ⟨renamed, commented⟩, ⟨name, commentPresent⟩⟩ := r
    obtain ⟨slot', ⟨renamed', commented'⟩, ⟨name', commentPresent'⟩⟩ := r'
    obtain rfl : slot = slot' := SlotReport.jsonFields_inj.1 hslot
    simpa [and_assoc] using hrest
  · intro h
    rw [h]

theorem Sample.toJson_inj {s s' : Sample} : s.toJson = s'.toJson ↔ s = s' := by
  obtain ⟨address, kind, target, shownAddress⟩ := s
  obtain ⟨address', kind', target', shownAddress'⟩ := s'
  simp [Sample.toJson]

theorem AccessReport.toJson_inj {r r' : AccessReport} : r.toJson = r'.toJson ↔ r = r' := by
  have hsamples {ss ss' : List Sample} : ss.map (·.toJson) = ss'.map (·.toJson) ↔ ss = ss' :=
    List.map_inj_right fun _ _ => Sample.toJson_inj.1
  cases r
  cases r'
  simp [AccessReport.toJson, hsamples]

namespace Report

/-- How many fields the JSON value of each kind has. -/
def fieldCount : Report → Nat
  | .slot _ => 7
  | .scan _ => 3
  | .label _ => 9
  | .access _ => 11

theorem fieldCount_toJson (r : Report) : r.toJson.fieldCount = r.fieldCount := by
  cases r with
  | slot r => rfl
  | scan r => rfl
  | label r => rfl
  | access r => rfl

theorem toJson_inj {r r' : Report} : r.toJson = r'.toJson ↔ r = r' := by
  constructor
  · intro h
    -- reports of two kinds differ in the number of their fields
    have hcount : r.fieldCount = r'.fieldCount := by
      rw [← fieldCount_toJson, ← fieldCount_toJson, h]
    cases r with
    | slot r =>
      cases r' with
      | slot r' => exact congrArg slot (SlotReport.toJson_inj.1 h)
      | _ => cases hcount
    | scan r =>
      cases r' with
      | scan r' => exact congrArg scan (ScanReport.toJson_inj.1 h)
      | _ => cases hcount
    | label r =>
      cases r' with
      | label r' => exact congrArg label (LabelReport.toJson_inj.1 h)
      | _ => cases hcount
    | access r =>
      cases r' with
      | access r' => exact congrArg access (AccessReport.toJson_inj.1 h)
      | _ => cases hcount
  · intro h
    rw [h]

/-! ## Texts -/

theorem printable_toJson (r : Report) : Json.Printable r.toJson := by
  cases r with
  | slot r => simp [toJson, SlotReport.toJson, SlotReport.jsonFields]
  | scan r => simp [toJson, ScanReport.toJson, SlotReport.toJson, SlotReport.jsonFields]
  | label r => simp [toJson, LabelReport.toJson, SlotReport.jsonFields]
  | access r => simp [toJson, AccessReport.toJson, Sample.toJson]

theorem parse?_json (r : Report) : Json.parse? (r.render .json) = some r.toJson :=
  Json.parse?_pretty r.printable_toJson

theorem parse?_compactJson (r : Report) : Json.parse? (r.render .compactJson) = some r.toJson :=
  Json.parse?_compact r.printable_toJson

/-- **JSON reports lose nothing.** A text of either form belongs to one report, and both forms of a
report are read as its value. -/
theorem json_loses_nothing (r r' : Report) :
    (r.render .json = r'.render .json ↔ r = r') ∧
    (r.render .compactJson = r'.render .compactJson ↔ r = r') ∧
    Json.parse? (r.render .json) = some r.toJson ∧
      Json.parse? (r.render .compactJson) = some r.toJson := by
  have hdetermines {layout : Layout}
      (hread : ∀ s : Report, Json.parse? (s.render layout) = some s.toJson) :
      r.render layout = r'.render layout ↔ r = r' := by
    constructor
    · intro h
      have hvalue := hread r
      rw [h, hread r'] at hvalue
      exact toJson_inj.1 (Option.some.inj hvalue).symm
    · intro h
      rw [h]
  exact ⟨hdetermines parse?_json, hdetermines parse?_compactJson, parse?_json r,
    parse?_compactJson r⟩

end Report

end FirmScan
