import FirmScan.JumpTable.Scan
import FirmScan.Proofs.JumpTable.Stability

/-!
# A scan covers its run

A scan is asked for a number of slots, and checks those of them that there are: slot numbers end at
2^32. How many these are is computed at two widths, since from slot 0 on there are 2^32. The numbers
of the report have 32 bits too, and the valid slots are not counted but found by subtraction.

**Theorem (`scan_covers_run`).** The number of slots is computed without leaving a width on the way
(`Clamped`). The report has one item for each slot of the run, in order, and what it says in numbers
is true of its items. No number of it leaves its 32 bits, and no two items are about the same
address. A run that is cut in two is the two runs, one behind the other, and the totals add up.

Slot numbers are compared as natural numbers. There a run is a range (`map_toNat_slots`), also when
it is cut short at the last slot, and a range that is cut in two is two ranges.
-/

namespace FirmScan

universe u

namespace JumpTable

/-! ## The length of a run -/

/-- No number lies below 0 or beyond its width on the way to the length of a run. -/
structure Clamped (start count : UInt32) : Prop where
  /-- There are no fewer than 0 slots behind the first. -/
  behind : (0xFFFFFFFF - start).toNat = 2 ^ 32 - 1 - start.toNat
  /-- One more than 2^32 - 1 does not wrap in 64 bits. -/
  available : (available start).toNat = 2 ^ 32 - start.toNat
  /-- What is asked for, or less, has 32 bits. -/
  narrow : narrow? (min count.toUInt64 (JumpTable.available start)) = some (clamp start count)
  length : (clamp start count).toNat = min count.toNat (2 ^ 32 - start.toNat)

theorem toNat_behind (start : UInt32) : (0xFFFFFFFF - start).toNat = 2 ^ 32 - 1 - start.toNat := by
  have hle : start ≤ 0xFFFFFFFF := UInt32.le_iff_toNat_le.2 (Nat.le_of_lt_succ start.toNat_lt)
  exact UInt32.toNat_sub_of_le _ _ hle

theorem toNat_available (start : UInt32) : (available start).toNat = 2 ^ 32 - start.toNat := by
  have hlt := start.toNat_lt
  rw [available, UInt64.toNat_add, UInt32.toNat_toUInt64, toNat_behind, UInt64.toNat_one]
  omega

theorem narrow?_of_lt {n : UInt64} (h : n.toNat < 2 ^ 32) :
    ∃ m, narrow? n = some m ∧ m.toNat = n.toNat := by
  have hle : n ≤ 0xFFFFFFFF := UInt64.le_iff_toNat_le.2 (Nat.le_of_lt_succ h)
  exact ⟨n.toUInt32, if_pos hle, by rw [UInt64.toNat_toUInt32, Nat.mod_eq_of_lt h]⟩

/-- **The length of a run** is what is asked for, or what there is if that is less. -/
theorem clamped (start count : UInt32) : Clamped start count := by
  have hmin : (min count.toUInt64 (available start)).toNat =
      min count.toNat (2 ^ 32 - start.toNat) := by
    rw [UInt64.toNat_min, UInt32.toNat_toUInt64, toNat_available]
  have hfits : (min count.toUInt64 (available start)).toNat < 2 ^ 32 := by
    rw [hmin]
    exact Nat.lt_of_le_of_lt (Nat.min_le_left ..) count.toNat_lt
  obtain ⟨n, hnarrow, hn⟩ := narrow?_of_lt hfits
  have hclamp : clamp start count = n := by rw [clamp, hnarrow, Option.getD_some]
  refine ⟨toNat_behind start, toNat_available start, ?_, ?_⟩
  · rw [hnarrow, hclamp]
  · rw [hclamp, hn, hmin]

example : available 0 = 0x100000000 ∧ clamp 0 0xFFFFFFFF = 0xFFFFFFFF ∧
    clamp 0xFFFFFFFF 0xFFFFFFFF = 1 := by decide

theorem toNat_clamp (start count : UInt32) :
    (clamp start count).toNat = min count.toNat (2 ^ 32 - start.toNat) :=
  (clamped start count).length

/-! ## Slot numbers -/

theorem toNat_add_ofNat {start : UInt32} {k : Nat} (h : start.toNat + k < 2 ^ 32) :
    (start + UInt32.ofNat k).toNat = start.toNat + k := by
  rw [UInt32.toNat_add, UInt32.toNat_ofNat']
  omega

/-- A run stops before slot numbers would wrap. -/
theorem add_lt_of_lt_clamp {start count : UInt32} {k : Nat} (hk : k < (clamp start count).toNat) :
    start.toNat + k < 2 ^ 32 := by
  rw [toNat_clamp] at hk
  omega

/-- **The slots of a run** are consecutive numbers. -/
theorem map_toNat_slots (start count : UInt32) :
    (slots start (clamp start count)).map UInt32.toNat =
      List.range' start.toNat (clamp start count).toNat := by
  rw [slots, List.map_map, List.range'_eq_map_range]
  refine List.map_congr_left fun k hk => ?_
  exact toNat_add_ofNat (add_lt_of_lt_clamp (List.mem_range.1 hk))

/-- **A run may be cut** behind any slot but the last. -/
theorem slots_append {start p q : UInt32} (hsum : p.toNat + q.toNat < 2 ^ 32)
    (hcut : start.toNat + p.toNat ≤ 2 ^ 32 - 1) :
    slots start (clamp start (p + q)) =
      slots start (clamp start p) ++ slots (start + p) (clamp (start + p) q) := by
  have hstart : (start + p).toNat = start.toNat + p.toNat := by
    rw [UInt32.toNat_add, Nat.mod_eq_of_lt (by omega)]
  have hfirst : (clamp start p).toNat = p.toNat := by
    rw [toNat_clamp]
    omega
  -- The first part is whole, so it is the second that is cut short at the last slot.
  have hwhole : (clamp start (p + q)).toNat = p.toNat + (clamp (start + p) q).toNat := by
    rw [toNat_clamp, toNat_clamp, hstart, UInt32.toNat_add, Nat.mod_eq_of_lt hsum]
    omega
  apply (List.map_inj_right fun _ _ => UInt32.toNat_inj.1).1
  rw [List.map_append, map_toNat_slots, map_toNat_slots, map_toNat_slots, hstart, hfirst, hwhole,
    List.range'_append_1]

end JumpTable

/-! ## Totals -/

/-- The totals of a report are the numbers of its items. -/
structure ScanReport.Counted (r : ScanReport) : Prop where
  total : r.total.toNat = r.items.length
  valid : r.valid.toNat = r.items.countP (·.isValid)
  invalid : r.invalid.toNat = r.items.countP fun i => i.problems ≠ []

/-- A report on two runs, one behind the other. -/
structure ScanReport.Joins (r first second : ScanReport) : Prop where
  items : r.items = first.items ++ second.items
  total : r.total.toNat = first.total.toNat + second.total.toNat
  valid : r.valid.toNat = first.valid.toNat + second.valid.toNat
  invalid : r.invalid.toNat = first.invalid.toNat + second.invalid.toNat

/-- Where the items are joined, the totals add up. -/
theorem ScanReport.Counted.joins {r first second : ScanReport} (h : r.Counted)
    (hfirst : first.Counted) (hsecond : second.Counted)
    (hitems : r.items = first.items ++ second.items) : r.Joins first second where
  items := hitems
  total := by rw [h.total, hfirst.total, hsecond.total, hitems, List.length_append]
  valid := by rw [h.valid, hfirst.valid, hsecond.valid, hitems, List.countP_append]
  invalid := by rw [h.invalid, hfirst.invalid, hsecond.invalid, hitems, List.countP_append]

namespace JumpTable

/-- Each item is valid or has a problem, and not both. -/
theorem countP_isValid_add {items : List SlotReport}
    (hvalid : ∀ i ∈ items, i.isValid = i.problems.isEmpty) :
    items.countP (·.isValid) + items.countP (fun i => i.problems ≠ []) = items.length := by
  have hcount : items.countP (·.isValid) = items.countP fun i => i.problems.isEmpty :=
    List.countP_congr fun i hi => by rw [hvalid i hi]
  rw [hcount, List.length_eq_countP_add_countP fun i : SlotReport => i.problems.isEmpty]
  simp

/-- A tally of fewer than 2^32 items is exact, although it subtracts. -/
theorem tally_counted (start count : UInt32) {items : List SlotReport}
    (hlength : items.length < 2 ^ 32) (hvalid : ∀ i ∈ items, i.isValid = i.problems.isEmpty) :
    (tally start count items).Counted := by
  have hsum := countP_isValid_add hvalid
  have htotal : (tally start count items).total.toNat = items.length := by
    rw [tally, UInt32.toNat_ofNat', Nat.mod_eq_of_lt hlength]
  have hinvalid : (tally start count items).invalid.toNat =
      items.countP fun i => i.problems ≠ [] := by
    have hsame : (fun i : SlotReport => !i.problems.isEmpty) =
        fun i => decide (i.problems ≠ []) := by
      funext i
      cases i.problems <;> rfl
    rw [tally, UInt32.toNat_ofNat', hsame, Nat.mod_eq_of_lt (by omega)]
  refine ⟨htotal, ?_, hinvalid⟩
  have hle : (tally start count items).invalid ≤ (tally start count items).total := by
    rw [UInt32.le_iff_toNat_le, htotal, hinvalid]
    omega
  have hdifference : (tally start count items).valid.toNat =
      (tally start count items).total.toNat - (tally start count items).invalid.toNat :=
    UInt32.toNat_sub_of_le _ _ hle
  show _ = items.countP (·.isValid)
  rw [hdifference, htotal, hinvalid]
  omega

variable {σ : Type u} [Disassembler σ]

theorem length_slots (start count : UInt32) : (slots start count).length = count.toNat := by
  rw [slots, List.length_map, List.length_range]

theorem isValid_of_mem_scan {s : σ} {m : Machine} {t : JumpTable} {start count : UInt32}
    {i : SlotReport} (hi : i ∈ (t.scan s m start count).items) :
    i.isValid = i.problems.isEmpty := by
  obtain ⟨slot, -, rfl⟩ := List.mem_map.1 hi
  exact isValid_check s m t slot

theorem scan_counted (s : σ) (m : Machine) (t : JumpTable) (start count : UInt32) :
    (t.scan s m start count).Counted := by
  refine tally_counted start (clamp start count) ?_ fun i hi => isValid_of_mem_scan hi
  rw [List.length_map, length_slots]
  exact UInt32.toNat_lt _

/-! ## The whole scan -/

/-- The report on the `n` slots from `start` on. Its numbers are equal to natural numbers, so none
of them has wrapped on the way. -/
structure Covers (s : σ) (m : Machine) (t : JumpTable) (start : UInt32) (n : Nat)
    (r : ScanReport) : Prop where
  /-- No slot number of the run wraps. -/
  slots_fit : ∀ k < n, start.toNat + k < 2 ^ 32
  items_length : r.items.length = n
  item : ∀ k < n, r.items[k]? = some (t.check s m (start + UInt32.ofNat k))
  start_eq : r.start = start
  count_eq : r.count.toNat = n
  total_eq : r.total.toNat = n
  counted : r.Counted
  /-- The number of valid slots is a difference, and it is not taken below zero. -/
  sum : r.valid.toNat + r.invalid.toNat = r.total.toNat
  addresses_apart : (r.items.map (·.address)).Nodup

theorem nodup_address_scan (s : σ) (m : Machine) (t : JumpTable) (start count : UInt32) :
    ((t.scan s m start count).items.map (·.address)).Nodup := by
  have hslots : (slots start (clamp start count)).Pairwise fun a b => a ≠ b := by
    have hrange : ((slots start (clamp start count)).map UInt32.toNat).Nodup := by
      rw [map_toNat_slots]
      exact List.nodup_range'
    exact (List.pairwise_map.1 hrange).imp fun hne heq => hne (congrArg _ heq)
  refine List.pairwise_map.2 (List.pairwise_map.2 (hslots.imp fun hne heq => ?_))
  rw [check_address, check_address] at heq
  exact hne (slotAddress_inj heq)

theorem scan_covers (s : σ) (m : Machine) (t : JumpTable) (start count : UInt32) :
    Covers s m t start (clamp start count).toNat (t.scan s m start count) := by
  have hlength : (t.scan s m start count).items.length = (clamp start count).toNat :=
    (List.length_map ..).trans (length_slots start (clamp start count))
  have hcounted := scan_counted s m t start count
  refine ⟨fun k hk => add_lt_of_lt_clamp hk, hlength, fun k hk => ?_, rfl, rfl, ?_, hcounted, ?_,
    nodup_address_scan s m t start count⟩
  · have hslot : (slots start (clamp start count))[k]? = some (start + UInt32.ofNat k) := by
      rw [slots, List.getElem?_map, List.getElem?_range hk]
      rfl
    show ((slots start (clamp start count)).map (t.check s m))[k]? = _
    rw [List.getElem?_map, hslot]
    rfl
  · rw [hcounted.total, hlength]
  · rw [hcounted.valid, hcounted.invalid, hcounted.total]
    exact countP_isValid_add fun i hi => isValid_of_mem_scan hi

/-- **A scan covers its run.** It checks the slots that there are, from the first on and each of
them once, and its totals are right; no number wraps on the way, neither where the run is clamped
nor in the report. Two scans, the second of which goes on where the first ends, find together what
one scan of both runs finds. -/
theorem scan_covers_run (s : σ) (m : Machine) (t : JumpTable) (start count : UInt32) :
    Clamped start count ∧
    Covers s m t start (min count.toNat (2 ^ 32 - start.toNat)) (t.scan s m start count) ∧
    ∀ p q : UInt32, p.toNat + q.toNat < 2 ^ 32 → start.toNat + p.toNat ≤ 2 ^ 32 - 1 →
      (t.scan s m start (p + q)).Joins (t.scan s m start p) (t.scan s m (start + p) q) := by
  have hcovers := scan_covers s m t start count
  rw [toNat_clamp] at hcovers
  refine ⟨clamped start count, hcovers, fun p q hsum hcut => ?_⟩
  have hitems : (t.scan s m start (p + q)).items =
      (t.scan s m start p).items ++ (t.scan s m (start + p) q).items := by
    show (slots start (clamp start (p + q))).map (t.check s m) = _
    rw [slots_append hsum hcut, List.map_append]
    rfl
  exact (scan_counted s m t start (p + q)).joins (scan_counted s m t start p)
    (scan_counted s m t (start + p) q) hitems

/-- A table whose last slot, behind the end of the address space, is the one that leads to a
function. -/
def lastSlotLeads : JumpTable := ⟨0xFFFFFFFC00001004, 0x8000, 0x9000⟩

/-- Of five slots there are two. Cut behind the first of them, the second run has the one that is
valid. -/
theorem scan_covers_run_lastSlots :
    Covers Snapshot.stub .arm lastSlotLeads 0xFFFFFFFE 2
      (lastSlotLeads.scan Snapshot.stub .arm 0xFFFFFFFE 5) ∧
      (lastSlotLeads.scan Snapshot.stub .arm 0xFFFFFFFE (1 + 4)).Joins
        (lastSlotLeads.scan Snapshot.stub .arm 0xFFFFFFFE 1)
        (lastSlotLeads.scan Snapshot.stub .arm 0xFFFFFFFF 4) ∧
      (lastSlotLeads.scan Snapshot.stub .arm 0xFFFFFFFF 4).valid = 1 := by
  obtain ⟨-, hcovers, hjoins⟩ := scan_covers_run Snapshot.stub .arm lastSlotLeads 0xFFFFFFFE 5
  exact ⟨hcovers, hjoins 1 4 (by decide) (by decide), by decide +kernel⟩

end JumpTable

end FirmScan
