import Vetting.Csv.Writer

/-!
Where a table is written to. Atoms are gathered into blocks of a fixed size before they are handed
over. A sink takes a whole block or, if the block does not fit any more, nothing of it, and then no
further block is handed over.
-/

namespace Vetting.Csv

open Text (Bytes)

/-- The size of the blocks that are handed over. -/
def blockSize : Nat := 8192

/-- Gathers atoms into blocks; `gathered` holds the atoms of the current block, the last one first,
and `used` counts their bytes. -/
def gather : (used : Nat) → (gathered : List Bytes) → List Bytes → List Bytes
  | _, gathered, [] => if gathered.isEmpty then [] else [gathered.reverse.flatten]
  | used, gathered, a :: rest =>
    if used + a.length ≤ blockSize then gather (used + a.length) (a :: gathered) rest
    else gathered.reverse.flatten :: gather a.length [a] rest

def blocks (atoms : List Bytes) : List Bytes := gather 0 [] atoms

theorem flatten_gather (used : Nat) (gathered atoms : List Bytes) :
    (gather used gathered atoms).flatten = gathered.reverse.flatten ++ atoms.flatten := by
  induction atoms generalizing used gathered with
  | nil => cases gathered <;> simp [gather]
  | cons a rest ih =>
    simp only [gather]
    split <;> simp [ih]

/-- Blocks hold what was gathered, in order. -/
@[simp] theorem flatten_blocks (atoms : List Bytes) : (blocks atoms).flatten = atoms.flatten := by
  simp [blocks, flatten_gather]

/-- What became of blocks that were handed over: the bytes taken, and whether all were. -/
structure Delivery where
  taken : Bytes
  complete : Bool
  deriving DecidableEq, Repr

/-- Hands over blocks to a sink with room for so many bytes, or for any number. -/
def deliver (room : Option Nat) : List Bytes → Delivery
  | [] => ⟨[], true⟩
  | b :: rest =>
    if room.any (· < b.length) then ⟨[], false⟩
    else
      let d := deliver (room.map (· - b.length)) rest
      ⟨b ++ d.taken, d.complete⟩

/-- A sink with room for any number of bytes takes all. -/
@[simp] theorem deliver_none (bs : List Bytes) : deliver none bs = ⟨bs.flatten, true⟩ := by
  induction bs with
  | nil => rfl
  | cons b rest ih => simp [deliver, ih]

end Vetting.Csv
