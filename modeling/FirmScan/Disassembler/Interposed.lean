import FirmScan.Disassembler

/-!
# A disassembler whose writes go astray

`Interposed` stands between an analysis and a disassembler and decides, for each kind of write, what
becomes of it. Reads pass through, except that the knowledge of functions may be lost at the first
write.
-/

namespace FirmScan

universe u

/-- What becomes of a write. -/
inductive WritePolicy where
  /-- It is made. -/
  | pass
  /-- It is not made, and the answer says so. -/
  | refuse
  /-- It is not made, and the answer says that it was. -/
  | pretend
  /-- It is made with another text. -/
  | wrap
  deriving DecidableEq, Repr

/-- Apply a policy to a write of the disassembler behind. -/
def WritePolicy.apply {σ : Type u} (p : WritePolicy) (write : σ → String → Bool × σ) (s : σ)
    (text : String) : Bool × σ :=
  match p with
  | .pass => write s text
  | .refuse => (false, s)
  | .pretend => (true, s)
  | .wrap => write s ("<" ++ text ++ ">")

structure Interposed (σ : Type u) where
  inner : σ
  renames : WritePolicy := .pass
  functionComments : WritePolicy := .pass
  lineComments : WritePolicy := .pass
  /-- Line comments at these addresses are refused, whatever the policy. -/
  refusedLines : List Address := []
  /-- Functions can no longer be looked up once a write was asked for. -/
  losesFunctions : Bool := false
  writeSeen : Bool := false

/-- The state after a write was asked for. -/
def Interposed.afterWrite {σ : Type u} (d : Interposed σ) (r : Bool × σ) : Bool × Interposed σ :=
  (r.1, { d with inner := r.2, writeSeen := true })

instance {σ : Type u} [Disassembler σ] : Disassembler (Interposed σ) where
  readWord? d a := Disassembler.readWord? d.inner a
  listing d a := Disassembler.listing d.inner a
  functionAt? d a :=
    if d.losesFunctions && d.writeSeen then none else Disassembler.functionAt? d.inner a
  rename d a name :=
    d.afterWrite (d.renames.apply (Disassembler.rename · a ·) d.inner name)
  commentFunction d a text :=
    d.afterWrite (d.functionComments.apply (Disassembler.commentFunction · a ·) d.inner text)
  commentLine d a text :=
    if d.refusedLines.contains a then d.afterWrite (false, d.inner)
    else d.afterWrite (d.lineComments.apply (Disassembler.commentLine · a ·) d.inner text)

end FirmScan
