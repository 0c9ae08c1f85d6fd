import FirmScan.Report.Tabular
import FirmScan.Proofs.Address
import FirmScan.Proofs.JumpTable.Scanning
import FirmScan.Proofs.JumpTable.Verdict
import FirmScan.Proofs.Lists

/-!
# Tables are read back

The report on a scan can be printed as a table, a row for each slot, for other programs to cut
apart. This file cuts it apart again.

**Rows** (`Table.rows?`). A text is a table if each of its lines has its line end. The cells of a
row are what the tabs leave of its line. Printed rows are found again if no cell holds a tab or a
line end (`Table.rows?_join`).

**Cells** (`SlotRow.ofCells?`). A row shows the number of its slot, its address, its target or a
dash, and its problems or `ok`. Each of the four is read back (`ofCells?_tabularCells`), provided
that no problem holds a text of the user's: such a text could hold a comma.

**Theorem (`scan_table_faithful`).** A check reports no problem of this kind. The table of a scan
therefore has as many rows as the report says that there are slots, its rows are read as the slots,
and as many of them are `ok` as the report says that are valid.
-/

namespace FirmScan

universe u v

namespace Table

/-! ## Rows -/

/-- A text that may stand in a cell. -/
def Clean (s : String) : Prop := '\t' ∉ s.toList ∧ '\n' ∉ s.toList

instance (s : String) : Decidable (Clean s) := inferInstanceAs (Decidable (_ ∧ _))

/-- The lines of a text, each of which has its line end; `none` if the last one has not. -/
def lines? (cs : List Char) : Option (List (List Char)) :=
  if (cs.splitOn '\n').getLast? = some [] then some (cs.splitOn '\n').dropLast else none

/-- The rows of a table, each with its cells. -/
def rows? (text : String) : Option (List (List String)) :=
  (lines? text.toList).map fun lines => lines.map fun line => (line.splitOn '\t').map String.ofList

theorem lines?_flatMap (ls : List (List Char)) :
    lines? (ls.flatMap (· ++ ['\n'])) = some (ls.flatMap (·.splitOn '\n')) := by
  have hpieces : (ls.flatMap (· ++ ['\n'])).splitOn '\n' = ls.flatMap (·.splitOn '\n') ++ [[]] := by
    induction ls with
    | nil => rfl
    | cons l ls ih =>
      rw [List.flatMap_cons, List.append_assoc, List.singleton_append, splitOn_append_cons, ih,
        List.flatMap_cons, List.append_assoc]
  rw [lines?, hpieces, List.getLast?_concat, if_pos rfl, List.dropLast_concat]

/-- A line end in a row can only come from one of its cells. -/
theorem newline_mem_columns_iff {row : List String} :
    '\n' ∈ (Plain.columns row).toList ↔ ∃ c ∈ row, '\n' ∈ c.toList := by
  rw [Plain.columns, String.toList_intercalate]
  show '\n' ∈ ['\t'].intercalate _ ↔ _
  simp [Text.mem_intercalate_iff]

theorem splitOn_tab_columns {row : List String} (hne : row ≠ []) :
    (Plain.columns row).toList.splitOn '\t' = (row.map String.toList).flatMap (·.splitOn '\t') := by
  rw [Plain.columns, String.toList_intercalate]
  exact splitOn_intercalate_eq_flatMap (by simpa using hne)

/-- **Printed rows are found again.** -/
theorem rows?_join {rows : List (List String)} (hne : ∀ row ∈ rows, row ≠ [])
    (h : ∀ row ∈ rows, ∀ c ∈ row, Clean c) :
    rows? (String.join (rows.map fun row => Plain.columns row ++ "\n")) = some rows := by
  have htext : (String.join (rows.map fun row => Plain.columns row ++ "\n")).toList =
      (rows.map fun row => (Plain.columns row).toList).flatMap (· ++ ['\n']) := by
    rw [String.toList_join, List.flatMap_map, List.flatMap_map]
    exact List.flatMap_congr fun row _ => String.toList_append
  have hlines : ∀ line ∈ rows.map fun row => (Plain.columns row).toList, '\n' ∉ line := by
    intro line hline hmem
    obtain ⟨row, hrow, rfl⟩ := List.mem_map.1 hline
    obtain ⟨c, hc, hnewline⟩ := newline_mem_columns_iff.1 hmem
    exact (h row hrow c hc).2 hnewline
  have hcells : ∀ row ∈ rows,
      ((Plain.columns row).toList.splitOn '\t').map String.ofList = row := by
    intro row hrow
    have htab : ∀ w ∈ row.map String.toList, '\t' ∉ w := by
      intro w hw
      obtain ⟨c, hc, rfl⟩ := List.mem_map.1 hw
      exact (h row hrow c hc).1
    rw [splitOn_tab_columns (hne row hrow), flatMap_splitOn_of_not_mem htab, List.map_map]
    simp
  rw [rows?, htext, lines?_flatMap, flatMap_splitOn_of_not_mem hlines, Option.map_some,
    List.map_map]
  exact congrArg some ((List.map_congr_left hcells).trans (List.map_id' rows))

theorem Clean.of_isAlphanum {s : String} (h : ∀ c ∈ s.toList, c.isAlphanum) : Clean s :=
  ⟨fun hmem => absurd (h _ hmem) (by decide), fun hmem => absurd (h _ hmem) (by decide)⟩

end Table

/-! ## Cells -/

namespace Problem

/-- The problems whose code is the same wherever they are reported. -/
def plain : List Problem :=
  [.unreadable, .outOfRange, .instruction, .noFunction, .writesDisabled, .unconfirmed]

def ofCode? (code : String) : Option Problem := plain.find? (·.code = code)

theorem ofCode?_code : ∀ p ∈ plain, ofCode? p.code = some p := by
  decide

theorem mapM_ofCode? {ps : List Problem} (h : ∀ p ∈ ps, p ∈ plain) :
    ps.mapM (fun p => ofCode? p.code) = some ps := by
  induction ps with
  | nil => rfl
  | cons p ps ih =>
    obtain ⟨hp, hps⟩ := List.forall_mem_cons.1 h
    rw [List.mapM_cons, ofCode?_code p hp, ih hps]
    rfl

/-- Of all codes only those with a text of the user's may hold a tab or a line end. -/
theorem clean_code_iff {p : Problem} :
    Table.Clean p.code ↔ ∀ field, p = .badField field → Table.Clean field := by
  cases p with
  | badField field => simp [Table.Clean, code]
  | _ => simp [Table.Clean, code]

end Problem

namespace Plain

open Table (Clean)

theorem toList_number (n : Nat) : (number n).toList = Numeral.decimal n := String.toList_ofList

theorem clean_number (n : Nat) : Clean (number n) := by
  refine .of_isAlphanum fun c hc => ?_
  rw [toList_number] at hc
  exact Numeral.isAlphanum_of_natural? (Numeral.natural?_decimal n) c hc

theorem clean_flag (b : Bool) : Clean (flag b) := by
  cases b <;> decide

end Plain

namespace Address

theorem clean_text (a : Address) : Table.Clean a.text :=
  .of_isAlphanum a.isHexLiteral_text.isAlphanum

theorem clean_address? (a : Option Address) : Table.Clean (Plain.address? a) := by
  cases a with
  | none => decide
  | some a => exact a.clean_text

end Address

/-- What a row shows of a slot. -/
structure SlotRow where
  slot : UInt32
  address : Address
  target : Option Address
  problems : List Problem
  deriving DecidableEq, Repr

def SlotReport.row (r : SlotReport) : SlotRow := ⟨r.slot, r.address, r.target, r.problems⟩

namespace SlotRow

def slot? (s : String) : Option UInt32 := (Numeral.below? UInt32.size 10 s.toList).map UInt32.ofNat

/-- A dash stands for no target. -/
def target? (s : String) : Option (Option Address) :=
  if s = "-" then some none else (Address.hexLiteral? s.toList).map some

/-- The codes stand between commas; `ok` stands for no problem. -/
def problems? (s : String) : Option (List Problem) :=
  if s = "ok" then some []
  else (s.toList.splitOn ',').mapM fun code => Problem.ofCode? (String.ofList code)

/-- Read a row. -/
def ofCells? : List String → Option SlotRow
  | [slot, address, target, verdict] => do
    let slot ← slot? slot
    let address ← Address.hexLiteral? address.toList
    let target ← target? target
    let problems ← problems? verdict
    return ⟨slot, address, target, problems⟩
  | _ => none

theorem slot?_number (slot : UInt32) : slot? (Plain.number slot.toNat) = some slot := by
  have hlt : slot.toNat < UInt32.size := slot.toNat_lt
  rw [slot?, Plain.toList_number,
    Numeral.below?_of_natural? (Numeral.natural?_decimal slot.toNat) hlt, Option.map_some,
    UInt32.ofNat_toNat]

theorem target?_address? (a : Option Address) : target? (Plain.address? a) = some a := by
  cases a with
  | none => rfl
  | some a =>
    have hne : a.text ≠ "-" := by
      intro heq
      have halpha := a.isHexLiteral_text.isAlphanum
      rw [heq] at halpha
      exact absurd (halpha '-' (by decide)) (by decide)
    have hread := a.isHexLiteral_text.hexLiteral?
    show target? a.text = _
    rw [target?, if_neg hne, hread]
    rfl

end SlotRow

namespace SlotReport

variable {r : SlotReport}

theorem toList_verdict (hne : r.problems ≠ []) :
    r.verdict.toList = [','].intercalate (r.problems.map (·.code.toList)) := by
  rw [verdict, if_neg (by simpa using hne), String.toList_intercalate, List.map_map]
  rfl

/-- The verdict is clean exactly if the codes are. -/
theorem clean_verdict_iff : Table.Clean r.verdict ↔ ∀ p ∈ r.problems, Table.Clean p.code := by
  by_cases hne : r.problems = []
  · have hok : r.verdict = "ok" := by simp [verdict, hne]
    simp only [hok, hne, List.not_mem_nil, false_implies, implies_true, iff_true]
    decide
  · simp [Table.Clean, toList_verdict hne, Text.mem_intercalate_iff, forall_and]

/-- All but the last cell are numbers and dashes. -/
theorem clean_tabularCells_iff :
    (∀ c ∈ r.tabularCells, Table.Clean c) ↔ ∀ p ∈ r.problems, Table.Clean p.code := by
  simp [tabularCells, clean_verdict_iff, Plain.clean_number, Address.clean_text,
    Address.clean_address?]

section Plain

variable (h : ∀ p ∈ r.problems, p ∈ Problem.plain)
include h

/-- The codes are found again between the commas. -/
theorem splitOn_verdict (hne : r.problems ≠ []) :
    r.verdict.toList.splitOn ',' = r.problems.map (·.code.toList) := by
  have hcomma : ∀ p ∈ Problem.plain, ',' ∉ p.code.toList := by decide
  rw [toList_verdict hne]
  refine List.splitOn_intercalate ',' ?_ (by simpa using hne)
  intro code hcode
  obtain ⟨p, hp, rfl⟩ := List.mem_map.1 hcode
  exact hcomma p (h p hp)

theorem verdict_eq_ok_iff : r.verdict = "ok" ↔ r.problems = [] := by
  refine ⟨fun hok => ?_, fun hnil => by simp [verdict, hnil]⟩
  by_contra hne
  have hcodes := splitOn_verdict h hne
  obtain ⟨p, ps, hps⟩ := List.exists_cons_of_ne_nil hne
  have hcode : ∀ p ∈ Problem.plain, p.code.toList ≠ "ok".toList := by decide
  rw [hok, hps, List.splitOn_eq_singleton (by decide), List.map_cons] at hcodes
  exact hcode p (h p (hps ▸ List.mem_cons_self)) (List.cons.inj hcodes).1.symm

theorem problems?_verdict : SlotRow.problems? r.verdict = some r.problems := by
  by_cases hne : r.problems = []
  · rw [SlotRow.problems?, if_pos ((verdict_eq_ok_iff h).2 hne), hne]
  · rw [SlotRow.problems?, if_neg (mt (verdict_eq_ok_iff h).1 hne), splitOn_verdict h hne,
      List.mapM_map]
    have hcodes : (fun code => Problem.ofCode? (String.ofList code)) ∘
        (fun p : Problem => p.code.toList) =
        fun p => Problem.ofCode? p.code := by
      funext p
      simp
    rw [hcodes, Problem.mapM_ofCode? h]

/-- **A row is read back.** -/
theorem ofCells?_tabularCells : SlotRow.ofCells? r.tabularCells = some r.row := by
  simp only [tabularCells, SlotRow.ofCells?, SlotRow.slot?_number,
    r.address.isHexLiteral_text.hexLiteral?, SlotRow.target?_address?, problems?_verdict h]
  rfl

theorem clean_of_plain : ∀ c ∈ r.tabularCells, Table.Clean c := by
  refine clean_tabularCells_iff.2 fun p hp => Problem.clean_code_iff.2 fun field hfield => ?_
  have hplain := h p hp
  rw [hfield] at hplain
  simp [Problem.plain] at hplain

end Plain

end SlotReport

/-! ## Scans -/

namespace JumpTable

section

variable {σ : Type u} [Disassembler σ]

/-- A check has no text of the user's to report. -/
theorem plain_of_mem_check {s : σ} {m : Machine} {t : JumpTable} {slot : UInt32} :
    ∀ p ∈ (t.check s m slot).problems, p ∈ Problem.plain := by
  have hverdict := check_verdict s m t slot
  generalize t.check s m slot = r at hverdict
  cases hverdict <;> simp [failure, Problem.plain]

theorem plain_of_mem_scan {s : σ} {m : Machine} {t : JumpTable} {start count : UInt32}
    {i : SlotReport} (hi : i ∈ (t.scan s m start count).items) :
    ∀ p ∈ i.problems, p ∈ Problem.plain := by
  obtain ⟨slot, -, rfl⟩ := List.mem_map.1 hi
  exact plain_of_mem_check

theorem rows?_scan (s : σ) (m : Machine) (t : JumpTable) (start count : UInt32) :
    Table.rows? (t.scan s m start count).tabular =
      some ((t.scan s m start count).items.map (·.tabularCells)) := by
  have htext : (t.scan s m start count).tabular =
      String.join (((t.scan s m start count).items.map (·.tabularCells)).map fun row =>
        Plain.columns row ++ "\n") := by
    rw [ScanReport.tabular, List.map_map]
    rfl
  rw [htext]
  refine Table.rows?_join ?_ ?_
  · intro row hrow
    obtain ⟨i, -, rfl⟩ := List.mem_map.1 hrow
    simp [SlotReport.tabularCells]
  · intro row hrow
    obtain ⟨i, hi, rfl⟩ := List.mem_map.1 hrow
    exact SlotReport.clean_of_plain (plain_of_mem_scan hi)

/-- The rows of a scan are read as its slots. -/
theorem ofCells?_scan (s : σ) (m : Machine) (t : JumpTable) (start count : UInt32) :
    ((t.scan s m start count).items.map (·.tabularCells)).map SlotRow.ofCells? =
      (t.scan s m start count).items.map fun i => some i.row := by
  rw [List.map_map]
  exact List.map_congr_left fun i hi => SlotReport.ofCells?_tabularCells (plain_of_mem_scan hi)

/-- The rows that end in `ok` are those of the valid slots. -/
theorem countP_ok_scan (s : σ) (m : Machine) (t : JumpTable) (start count : UInt32) :
    ((t.scan s m start count).items.map (·.tabularCells)).countP
      (fun row => row.getLast? = some "ok") =
      (t.scan s m start count).valid.toNat := by
  rw [List.countP_map, (scan_counted s m t start count).valid]
  refine List.countP_congr fun i hi => ?_
  have hlast : i.tabularCells.getLast? = some i.verdict := rfl
  rw [isValid_of_mem_scan hi, List.isEmpty_iff,
    ← SlotReport.verdict_eq_ok_iff (plain_of_mem_scan hi)]
  simp [hlast]

end

/-- What a table shows is in its rows. -/
theorem tabular_of_rows {r r' : ScanReport}
    (h : r.items.map SlotReport.row = r'.items.map SlotReport.row) :
    r.tabular = r'.tabular := by
  have htext (x : ScanReport) : x.tabular = String.join ((x.items.map SlotReport.row).map fun row =>
      SlotReport.tabular ⟨row.slot, row.address, none, none, row.target, [], row.problems⟩) := by
    rw [ScanReport.tabular, List.map_map]
    rfl
  rw [htext, htext, h]

/-- **The table of a scan is faithful.** It has a row for each slot that was checked, each of four
cells. The rows are read as the number, the address, the target and the problems of the slots, in
order, and those that end in `ok` are as many as the valid slots. Two scans, of whatever
disassemblers, have the same table exactly if these four agree for each slot. -/
theorem scan_table_faithful {σ : Type u} [Disassembler σ] (s : σ) (m : Machine) (t : JumpTable)
    (start count : UInt32) :
    let r := t.scan s m start count
    (∃ rows, Table.rows? r.tabular = some rows ∧ rows.length = r.total.toNat ∧
      (∀ row ∈ rows, row.length = 4) ∧
      rows.map SlotRow.ofCells? = r.items.map (fun i => some i.row) ∧
      rows.countP (fun row => row.getLast? = some "ok") = r.valid.toNat) ∧
    ∀ {τ : Type v} [Disassembler τ] (s' : τ) (m' : Machine) (t' : JumpTable)
      (start' count' : UInt32),
      let r' := t'.scan s' m' start' count'
      r'.tabular = r.tabular ↔ r'.items.map SlotReport.row = r.items.map SlotReport.row := by
  intro r
  refine ⟨⟨_, rows?_scan s m t start count, ?_, ?_, ofCells?_scan s m t start count,
    countP_ok_scan s m t start count⟩, ?_⟩
  · rw [List.length_map, (scan_counted s m t start count).total]
  · intro row hrow
    obtain ⟨i, -, rfl⟩ := List.mem_map.1 hrow
    rfl
  · intro τ _ s' m' t' start' count' r'
    refine ⟨fun htext => ?_, tabular_of_rows⟩
    -- The same text has the same rows, and they are read as the slots of either scan.
    have hcells : r'.items.map (·.tabularCells) = r.items.map (·.tabularCells) := by
      have hrows := congrArg Table.rows? htext
      exact Option.some.inj ((rows?_scan s' m' t' start' count').symm.trans
        (hrows.trans (rows?_scan s m t start count)))
    have hread := congrArg (List.map SlotRow.ofCells?) hcells
    rw [ofCells?_scan s' m' t' start' count', ofCells?_scan s m t start count] at hread
    apply (List.map_inj_right fun _ _ => Option.some.inj).1
    rw [List.map_map, List.map_map]
    exact hread

/-- The last two slots that there are: the one has no word, and the other leads to a function. -/
theorem scan_table_lastSlots :
    let r := lastSlotLeads.scan Snapshot.stub .arm 0xFFFFFFFE 5
    r.tabular =
      "4294967294\t0x00000FFC\t-\tTOOL_BINDING_MISSING\n4294967295\t0x00001000\t0x00008000\tok\n" ∧
    ∃ rows, Table.rows? r.tabular = some rows ∧ rows.length = 2 ∧ (∀ row ∈ rows, row.length = 4) ∧
      rows.countP (fun row => row.getLast? = some "ok") = 1 := by
  intro r
  have htotal : r.total.toNat = 2 := by decide +kernel
  have hvalid : r.valid.toNat = 1 := by decide +kernel
  obtain ⟨⟨rows, hrows, hlength, hcells, -, hok⟩, -⟩ :=
    scan_table_faithful.{0, 0} Snapshot.stub .arm lastSlotLeads 0xFFFFFFFE 5
  exact ⟨by decide +kernel, rows, hrows, hlength.trans htotal, hcells, hok.trans hvalid⟩

end JumpTable

end FirmScan
