/-!
Host names with other letters than ASCII ones: the ASCII letters in their order, then the others
by number, each as the distance from the one before it in digits of base 36.
-/

namespace Vetting.Url.Punycode

def digitChar (d : Nat) : Char := if d < 26 then Char.ofNat (0x61 + d) else Char.ofNat (0x16 + d)

def threshold (k bias : Nat) : Nat :=
  if k ≤ bias then 1 else if bias + 26 ≤ k then 26 else k - bias

theorem threshold_pos (k bias : Nat) : 1 ≤ threshold k bias := by
  unfold threshold
  split <;> (try split) <;> omega

def adaptLoop (delta k : Nat) : Nat × Nat :=
  if 455 < delta then adaptLoop (delta / 35) (k + 36) else (delta, k)
termination_by delta
decreasing_by exact Nat.div_lt_self (by omega) (by omega)

/-- How later distances are expected to be like the last one. -/
def adapt (delta count : Nat) (isFirst : Bool) : Nat :=
  let d := if isFirst then delta / 700 else delta / 2
  let (r, k) := adaptLoop (d + d / count) 0
  k + 36 * r / (r + 38)

/-- A distance as digits. -/
def digits (bias k q : Nat) : List Char :=
  let t := threshold k bias
  if q < t then [digitChar q]
  else digitChar (t + (q - t) % (36 - t)) :: digits bias (k + 36) ((q - t) / (36 - t))
termination_by q
decreasing_by
  have h := threshold_pos k bias
  exact Nat.lt_of_le_of_lt (Nat.div_le_self _ _) (by omega)

structure State where
  out : List Char
  delta : Nat
  bias : Nat
  handled : Nat

/-- One character of the name, while the characters numbered `m` are put in. -/
def step (basic m : Nat) (s : State) (c : Char) : State :=
  if c.toNat < m then { s with delta := s.delta + 1 }
  else if c.toNat = m then
    { out := s.out ++ digits s.bias 36 s.delta, delta := 0,
      bias := adapt s.delta (s.handled + 1) (s.handled = basic), handled := s.handled + 1 }
  else s

def loop (input : List Char) (basic : Nat) : List Nat → Nat → State → State
  | [], _, s => s
  | m :: rest, n, s =>
    let s := input.foldl (step basic m) { s with delta := s.delta + (m - n) * (s.handled + 1) }
    loop input basic rest (m + 1) { s with delta := s.delta + 1 }

def insertSorted (x : Nat) : List Nat → List Nat
  | [] => [x]
  | y :: ys => if x < y then x :: y :: ys else if x = y then y :: ys else y :: insertSorted x ys

def encode (label : List Char) : List Char :=
  let ascii := label.filter fun c => c.toNat < 0x80
  let others := (label.filter fun c => 0x80 ≤ c.toNat).foldr (fun c => insertSorted c.toNat) []
  ascii ++ (if ascii.isEmpty then [] else ['-']) ++
    (loop label ascii.length others 128 ⟨[], 0, 72, ascii.length⟩).out

/-- A label of a host name in ASCII letters. -/
def toAscii (label : List Char) : List Char :=
  if label.all fun c => c.toNat < 0x80 then label
  else ['x', 'n', '-', '-'] ++ encode label

end Vetting.Url.Punycode
