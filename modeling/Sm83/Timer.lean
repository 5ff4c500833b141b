import Sm83.Word

/-!
The timer. A 16-bit divider counts clocks; TIMA counts the falling edges of one of its bits. When
TIMA overflows it reads 0 for four clocks and is then loaded from TMA, which requests an interrupt.
-/
namespace Sm83

structure Timer where
  divider : UInt16 := 0
  tima : UInt8 := 0
  tma : UInt8 := 0
  enabled : Bool := false
  rate : Fin 4 := 0
  /-- After an overflow, the clocks that pass before the one that reloads TIMA. -/
  reload : Option Nat := none
deriving DecidableEq, Inhabited

namespace Timer

def initial : Timer := {}

/-- The divider bit that drives TIMA. -/
def selectedBit : Fin 4 → Nat
  | 0 => 9 | 1 => 3 | 2 => 5 | 3 => 7

/-- The clocks between two falling edges of the selected bit. -/
def period : Fin 4 → Nat
  | 0 => 1024 | 1 => 16 | 2 => 64 | 3 => 256

def input (t : Timer) : Bool := t.enabled && t.divider.toNat.testBit (selectedBit t.rate)

def div (t : Timer) : UInt8 := (t.divider / 256).toUInt8

def tac (t : Timer) : UInt8 := 0xF8 + (if t.enabled then 4 else 0) + UInt8.ofNat t.rate.val

def increment (t : Timer) : Timer :=
  if t.tima = 0xFF then {t with tima := 0, reload := some 3} else {t with tima := t.tima + 1}

def countFall (before : Bool) (t : Timer) : Timer := if before && !t.input then t.increment else t

def writeDiv (t : Timer) : Timer := {t with divider := 0}.countFall t.input

def writeTima (t : Timer) (v : UInt8) : Timer := {t with tima := v, reload := none}

def writeTma (t : Timer) (v : UInt8) : Timer := {t with tma := v}

def writeTac (t : Timer) (v : UInt8) : Timer :=
  {t with enabled := v &&& 4 != 0, rate := twoBits v.toNat}.countFall t.input

def advanceReload (t : Timer) : Timer × Bool :=
  match t.reload with
  | none => (t,false)
  | some 0 =>
    if t.tima = 0 then ({t with tima := t.tma, reload := none},true)
    else ({t with reload := none},false)
  | some (n + 1) => ({t with reload := some n},false)

/-- One clock. Tells whether TIMA was reloaded. -/
def clock (t : Timer) : Timer × Bool :=
  ({t with divider := t.divider + 1}.countFall t.input).advanceReload

private def clocks : Nat → Timer → Bool → Timer × Bool
  | 0,t,fired => (t,fired)
  | n + 1,t,fired =>
    let (t,now) := t.clock
    clocks n t (fired || now)

/-- A switched-off timer with no reload ahead only counts clocks. -/
def isQuiet (t : Timer) : Bool := !t.enabled && t.reload.isNone

/-- A number of clocks. Tells whether TIMA was reloaded at least once. -/
def tick (n : Nat) (t : Timer) : Timer × Bool :=
  if t.isQuiet then ({t with divider := t.divider + UInt16.ofNat n},false) else clocks n t false

private theorem clocks_fired (n : Nat) (t : Timer) (fired : Bool) :
    clocks n t fired = ((clocks n t false).1,fired || (clocks n t false).2) := by
  induction n generalizing t fired with
  | zero => simp [clocks]
  | succ n ih => simp only [clocks]; rw [ih,ih _ (false || _)]; simp [Bool.or_assoc]

private theorem clock_of_isQuiet {t : Timer} (h : t.isQuiet) :
    t.clock = ({t with divider := t.divider + 1},false) := by
  simp only [isQuiet,Bool.and_eq_true,Bool.not_eq_true',Option.isNone_iff_eq_none] at h
  simp [clock,countFall,input,advanceReload,h.1,h.2]

private theorem clocks_of_isQuiet (n : Nat) {t : Timer} (h : t.isQuiet) :
    clocks n t false = ({t with divider := t.divider + UInt16.ofNat n},false) := by
  induction n generalizing t with
  | zero => simp [clocks]
  | succ n ih =>
    have next : ({t with divider := t.divider + 1} : Timer).isQuiet := h
    simp only [clocks,clock_of_isQuiet h,Bool.or_false,ih next]
    rw [UInt16.add_assoc,← UInt16.ofNat_one,← UInt16.ofNat_add,Nat.add_comm 1 n]

private theorem tick_eq_clocks (n : Nat) (t : Timer) : t.tick n = clocks n t false := by
  simp only [tick]
  split
  · next h => rw [clocks_of_isQuiet n h]
  · rfl

@[simp] theorem tick_zero (t : Timer) : t.tick 0 = (t,false) := tick_eq_clocks 0 t

theorem tick_succ (n : Nat) (t : Timer) :
    t.tick (n + 1) = ((t.clock.1.tick n).1,t.clock.2 || (t.clock.1.tick n).2) := by
  simp only [tick_eq_clocks,clocks]
  rw [clocks_fired,Bool.false_or]

theorem tick_add (m n : Nat) (t : Timer) :
    t.tick (m + n) = (((t.tick m).1.tick n).1,(t.tick m).2 || ((t.tick m).1.tick n).2) := by
  induction m generalizing t with
  | zero => simp
  | succ m ih => rw [Nat.succ_add,tick_succ,tick_succ,ih]; simp [Bool.or_assoc]

end Timer
end Sm83
