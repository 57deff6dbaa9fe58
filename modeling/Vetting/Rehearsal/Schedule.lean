import Vetting.Bulk.Dispatch
import Vetting.Rehearsal.Play

/-!
Rehearsals of bulk uploads. Strands take turns in the order in which they became able to move; a
strand goes on until it waits. Time passes only when all strands wait, to the next moment at which
a reply arrives or a pause ends.
-/

namespace Vetting.Rehearsal

open Bulk (Dispatch Who)

/-- A strand whose turn it is, with the reply that has arrived for it. -/
structure Turn where
  who : Who
  reply : Option Reply

structure Timer where
  due : Nat
  turn : Turn

structure Board where
  upload : Dispatch
  stage : Stage
  /-- Strands that can move, the first one next. -/
  turns : List Turn
  /-- In the order in which they were set. -/
  timers : List Timer

namespace Board

def now (b : Board) : Nat := b.upload.now

def feed? (b : Board) (e : Bulk.Event) : Option Board :=
  (b.upload.step? (.run e)).map fun d => { b with upload := d }

def isPreparing (b : Board) : Bool :=
  match b.upload with
  | .preparing _ => true
  | _ => false

def isOver (b : Board) : Bool :=
  match b.upload with
  | .preparing _ => false
  | .running r _ => r.answer?.isSome
  | _ => true

/-- Whether the main strand waits for a row. -/
def mainWaitsForRow (b : Board) : Bool :=
  match b.upload with
  | .running r _ =>
    match r.phase with
    | .acquiring _ => true
    | .joining => true
    | _ => false
  | _ => false

def wakeMain (b : Board) : Board :=
  if b.mainWaitsForRow && !b.turns.any (fun t => t.who = .main) then
    { b with turns := b.turns ++ [⟨.main, none⟩] }
  else b

/-- Takes note of all rows that are over. -/
def joinRows (b : Board) : Board :=
  match b.upload with
  | .running r _ =>
    (List.range r.rows.length).foldl (fun b i => (b.feed? (.join i)).getD b) b
  | _ => b

def rowCount (b : Board) : Nat :=
  match b.upload with
  | .running r _ => r.rows.length
  | _ => 0

/-- The pause that the main strand has just begun. -/
def pauseDue? (b : Board) : Option Nat :=
  match b.upload with
  | .running r _ =>
    match r.phase with
    | .pausing due _ => some due
    | _ => none
  | _ => none

/-- Delivers a reply to the call that a strand waits for. -/
def deliver (b : Board) (w : Who) (reply : Reply) : Board :=
  match b.upload.pending? w with
  | none => b
  | some c =>
    let e : Bulk.Event := match reply with
      | .crash => .crash w
      | reply => .reply w (b.stage.outcome reply)
    match b.feed? e with
    | some b' => { b' with stage := b.stage.absorb reply c }
    | none => b

/-- Lets a strand go on until it waits. -/
def go : Nat → Board → Who → Board
  | 0, b, _ => b
  | fuel + 1, b, w =>
    let b := if w = .main then b.joinRows else b
    match b.feed? (.move w (clockAt b.now)) with
    | none =>
      -- The strand is over or waits; a row that is over may let the main strand go on.
      if w = .main then b else b.wakeMain
    | some b' =>
      let b' := if b'.rowCount > b.rowCount then
          { b' with turns := b'.turns ++ [⟨.row b.rowCount, none⟩] }
        else b'
      match b'.pauseDue?, b.pauseDue? with
      | some due, none =>
        if due ≤ b'.now then go fuel b' w
        else { b' with timers := b'.timers ++ [⟨due, ⟨w, none⟩⟩] }
      | _, _ =>
        match b'.upload.pending? w with
        | none => go fuel b' w
        | some c =>
          let (delay, reply, stage) := b'.stage.take c
          let b' := { b' with stage }
          if delay = 0 then
            let b' := b'.deliver w reply
            go fuel b' w
          else { b' with timers := b'.timers ++ [⟨b'.now + delay, ⟨w, some reply⟩⟩] }

def takeTurn (fuel : Nat) (b : Board) (t : Turn) : Board :=
  let b := match t.reply with
    | some reply => b.deliver t.who reply
    | none => b
  go fuel b t.who

/-- The next moment at which something happens. -/
def nextDue? (b : Board) : Option Nat :=
  b.timers.foldl (fun m t => match m with
    | none => some t.due
    | some d => some (min d t.due)) none

/-- Whether a moment lies beyond a limit. Of what happens at the limit itself only the preparation
of a plan is played. -/
def isBeyond (b : Board) (limit : Option Nat) (due : Nat) : Bool :=
  limit.any fun l => l < due || (l = due && !b.isPreparing)

/-- Plays until the upload is over, nothing can move, or the time `limit` is reached. A turn may
take `turnFuel` steps. -/
def run (turnFuel : Nat) (limit : Option Nat) : Nat → Board → Board
  | 0, b => b
  | fuel + 1, b =>
    match b.turns with
    | t :: rest => run turnFuel limit fuel ({ b with turns := rest }.takeTurn turnFuel t)
    | [] =>
      if b.isOver then b
      else
        match b.nextDue? with
        | none => b
        | some due =>
          if b.isBeyond limit due then b
          else
            let b := (b.feed? (.tick due)).getD b
            run turnFuel limit fuel { b with
              turns := (b.timers.filter (·.due = due)).map (·.turn)
              timers := b.timers.filter (·.due ≠ due) }

end Board

/-- What came of a rehearsed upload. -/
structure Played where
  /-- What the client was told and when; `none` if it had gone away. -/
  answer : Option (Except Refusal Bulk.Summary × Nat)
  world : World

def Board.world (b : Board) : World := ⟨b.stage, b.upload.shared, b.now, b.upload.journal⟩

def Board.played (b : Board) : Played := ⟨b.upload.answer?.map fun a => (a, b.now), b.world⟩

/-- How many turns the rehearsal of an upload of so many rows may take, and how many steps a
turn. -/
def boardFuel (rows : Nat) : Nat := 64 * rows + 1024

/-- Plays an upload. `patience` tells after what time the client goes away, if at all, and how long
the desk is watched after that. -/
def playUpload (w : World) (prepare : Task (Except Refusal Bulk.Plan)) (rows : Nat)
    (patience : Option (Nat × Nat)) : Played :=
  let start : Board :=
    ⟨Dispatch.new prepare w.shared w.now w.journal, w.stage, [⟨.main, none⟩], []⟩
  match patience with
  | none => (start.run (boardFuel rows) none (boardFuel rows)).played
  | some (leave, watch) =>
    let b := start.run (boardFuel rows) (some (w.now + leave)) (boardFuel rows)
    if b.isOver then b.played
    else
      let b := { b with upload := (b.upload.step? .leave).getD b.upload }
      ⟨none, (b.run (boardFuel rows) (some (w.now + leave + watch)) (boardFuel rows)).world⟩

end Vetting.Rehearsal
