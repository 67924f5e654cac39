import Korith.Lib.FloatArith
import Korith.Lib.Machine

/-!
# The depth of speculation

`schedule_step` of the controller raises or lowers the speculative depth by the signals of the last step. The state
belongs to the caller: the depth, and in one integer the number of the step (16 bits), the step of the last change (8
bits) and the length of a streak of misses (8 bits). A change that is neither forced nor a probe waits until 32 steps
have gone by since the last one. Costs, lengths and the log are left out.
-/

namespace Korith.Scheduler

open FloatArith

structure State where
  speculativeDepth : Int
  /-- the packed counters -/
  batchSize : BitVec 32
  baselineReady : Int
  deriving DecidableEq

structure Input (F : Type) where
  acceptance : F
  entropy : F
  currentTps : F
  amfReuseScore : F
  baselineReady : Int

structure Output (F : Type) where
  desiredDepth : Int
  stabilityScore : F
  throttleFlag : Int

def zeroState : State := ⟨0, 0, 0⟩

variable {F : Type} [FloatArith F]

/-! ### Signals -/

def clampCInt (v lo hi : Int) : Int :=
  if hi < lo then lo
  else if v < lo then lo
  else if hi < v then hi
  else v

def sanitizeUnit (v fallback : F) : F :=
  if ¬ isFinite v then fallback
  else if lt v (ofNat 0) then ofNat 0
  else if lt (ofNat 1) v then ofNat 1
  else v

def sanitize (v fallback : F) : F := if isFinite v then v else fallback

def clampUnit (v : F) : F :=
  if lt v (ofNat 0) then ofNat 0
  else if lt (ofNat 1) v then ofNat 1
  else v

def negHundredths (n : Nat) : F := ofNat 0 - hundredths n

structure Signals (F : Type) where
  acceptance : F
  entropy : F
  tpsDelta : F
  reuseScore : F

def signals (input : Input F) : Signals F where
  acceptance := sanitizeUnit input.acceptance (ofNat 0)
  entropy := sanitizeUnit input.entropy (ofNat 1)
  tpsDelta := sanitize input.currentTps (ofNat 0)
  reuseScore := sanitizeUnit input.amfReuseScore (ofNat 0)

inductive LaneClass
  | specHit
  | hit
  | miss
  deriving DecidableEq

def classifyLane (x : Signals F) : LaneClass :=
  let replayLocal := ge x.reuseScore (hundredths 70)
  let stableDecode := ge x.acceptance (hundredths 78) && ge (hundredths 58) x.entropy && ge x.tpsDelta (negHundredths 5)
  if replayLocal && stableDecode then .specHit
  else if replayLocal || (ge x.acceptance (hundredths 68) && ge (hundredths 68) x.entropy) then .hit
  else .miss

def LaneClass.cap : LaneClass → Int
  | specHit => 16
  | hit => 12
  | miss => 3

def LaneClass.throttleFlag : LaneClass → Int
  | specHit => 3
  | hit => 2
  | miss => 1

/-! ### Counters -/

structure Counters where
  step : BitVec 32
  lastChange : BitVec 32
  missStreak : BitVec 32

def unpackCounters (raw : BitVec 32) : Counters where
  step := raw &&& 0xFFFF
  lastChange := (raw >>> 16) &&& 0xFF
  missStreak := (raw >>> 24) &&& 0xFF

def packCounters (c : Counters) : BitVec 32 :=
  ((c.missStreak &&& 0xFF) <<< 24) ||| ((c.lastChange &&& 0xFF) <<< 16) ||| (c.step &&& 0xFFFF)

/-! ### A step -/

structure Proposal where
  depth : Int
  forceDown : Bool
  missStreak : BitVec 32

def propose (x : Signals F) (lane : LaneClass) (depth : Int) (missStreak : BitVec 32) : Proposal :=
  match lane with
  | .specHit =>
    if ge x.acceptance (hundredths 90) && ge (hundredths 45) x.entropy && ge x.tpsDelta (negHundredths 2) then
      ⟨depth + 2, false, 0⟩
    else if ge x.acceptance (hundredths 80) && ge (hundredths 58) x.entropy && ge x.tpsDelta (negHundredths 5) then
      ⟨depth + 1, false, 0⟩
    else if lt x.acceptance (hundredths 62) || lt (hundredths 82) x.entropy || lt x.tpsDelta (negHundredths 15) then
      ⟨max (depth - 2) 2, true, 0⟩
    else ⟨depth, false, 0⟩
  | .hit =>
    if ge x.acceptance (hundredths 82) && ge (hundredths 62) x.entropy && ge x.tpsDelta (negHundredths 3) then
      ⟨depth + 1, false, 0⟩
    else if lt x.acceptance (hundredths 58) || lt (hundredths 84) x.entropy || lt x.tpsDelta (negHundredths 14) then
      ⟨max (depth - 1) 2, true, 0⟩
    else ⟨depth, false, 0⟩
  | .miss =>
    let missStreak := if 255 < missStreak + 1 then 255 else missStreak + 1
    let depth :=
      if lt x.acceptance (hundredths 50) || lt (hundredths 85) x.entropy || lt x.tpsDelta (negHundredths 10) then 2
      else min depth 3
    -- the starvation guard
    if 96 ≤ missStreak ∧ ge x.acceptance (hundredths 60) ∧ ge (hundredths 70) x.entropy then ⟨3, true, 0⟩
    else ⟨depth, true, missStreak⟩

/-- What a step has worked out before it looks at the last change. -/
structure Decision where
  lane : LaneClass
  step : BitVec 32
  lastChange : BitVec 32
  missStreak : BitVec 32
  depth : Int
  forceDown : Bool
  probed : Bool

def decision (s : State) (input : Input F) : Decision :=
  let x := signals input
  let c := unpackCounters s.batchSize
  let step := (c.step + 1) &&& 0xFFFF
  let lane := classifyLane x
  let p := propose x lane (clampCInt s.speculativeDepth 1 16) c.missStreak
  let depth := clampCInt p.depth 1 lane.cap
  let probed := decide (depth = 1) && decide (step % 64 = 0) && ge x.tpsDelta (ofNat 0)
  { lane
    step
    lastChange := c.lastChange
    missStreak := p.missStreak
    depth := clampCInt (if probed then 2 else depth) 1 16
    forceDown := p.forceDown && !probed
    probed }

def Decision.delta (d : Decision) : BitVec 32 := ((d.step &&& 0xFF) - d.lastChange) &&& 0xFF

/-- A change is asked for that is neither forced nor a probe. -/
def Decision.Requests (d : Decision) (s : State) : Prop :=
  d.depth ≠ s.speculativeDepth ∧ d.probed = false ∧ d.forceDown = false
  deriving Decidable

def Decision.Held (d : Decision) (s : State) : Prop := d.Requests s ∧ d.delta < 32
  deriving Decidable

def scheduleStep (s : State) (input : Input F) : Output F × State :=
  if input.baselineReady = 0 then (⟨1, ofNat 0, 1⟩, { s with speculativeDepth := 1, baselineReady := 0 })
  else
    let x := signals input
    let d := decision s input
    let depth := if d.Held s then s.speculativeDepth else d.depth
    let lastChange := if d.depth ≠ s.speculativeDepth ∧ ¬ d.Held s then d.step &&& 0xFF else d.lastChange
    (⟨depth, clampUnit (x.acceptance * (ofNat 1 - x.entropy)), d.lane.throttleFlag⟩,
      ⟨depth, packCounters ⟨d.step, lastChange, d.missStreak⟩, 1⟩)

def zeroInput : Input F := ⟨ofNat 0, ofNat 0, ofNat 0, ofNat 0, 0⟩

/-- Over nullable pointers: a null one stands for zeros, and then nothing is stored. -/
def korithScheduleStep (state : Option State) (input : Option (Input F)) : Output F × Option State :=
  let next := scheduleStep (state.getD zeroState) (input.getD zeroInput)
  (next.1, state.map fun _ => next.2)

/-! ### The simplified interface -/

structure Reading (F : Type) where
  entropy : F
  acceptance : F
  tps : F

def Reading.input (r : Reading F) : Input F := ⟨r.acceptance, r.entropy, r.tps, ofNat 0, 1⟩

/-- Between two calls only `DEPTH` is kept; the counters are zero in every call. A depth is at most 16, so the casts
between `u32` and `c_int` change nothing. -/
def korithSchedulerUpdate (depth : Int) (r : Reading F) : Int × Int :=
  let out := (scheduleStep ⟨depth, 0, 1⟩ r.input).1
  (max out.desiredDepth 1, max out.desiredDepth 1)

def korithSchedulerReset : Int := 1

end Korith.Scheduler
