import GreenHouse.Lib.CText
import Mathlib.Logic.Function.Basic

/-!
# The world of the firmware

The globals and statics of `main/*.c`, the levels of the GPIO outputs, the contents of the flash
namespace `storage` and a trace of what a call did to the outside. The functions of the firmware
are functions of a `World`.

`ON`/`OFF` and a GPIO level of 1/0 are `true`/`false`. An `int` is an `Int`; operations that can
overflow are reduced by `CInt.i32`. The trace is only ever appended to and never read.
-/

namespace GreenHouse

open CText

-- named, so that the index numerals are the same terms in every module
instance instNeZeroThree : NeZero 3 := ⟨by decide⟩

instance instNeZeroTwo : NeZero 2 := ⟨by decide⟩

/-! ## Pins (`green_house.h`) -/

abbrev Pin := Nat

def miscLedPin : Pin := 2
def statusLedPin : Pin := 15
def vent1LedPin : Pin := 4
def vent1CtrlPin : Pin := 9
def misc1CtrlPin : Pin := 17
def en24vPin : Pin := 13
def dht11CtrlPin : Pin := 23

def solLedPin : Fin 3 → Pin
  | 0 => 22
  | 1 => 21
  | 2 => 19

def fanLedPin : Fin 2 → Pin
  | 0 => 18
  | 1 => 5

def fanCtrlPin : Fin 2 → Pin
  | 0 => 32
  | 1 => 10

def dripOpenCtrlPin : Fin 3 → Pin
  | 0 => 14
  | 1 => 26
  | 2 => 33

def dripCloseCtrlPin : Fin 3 → Pin
  | 0 => 12
  | 1 => 27
  | 2 => 25

/-! ## Records (`green_house.h`) -/

structure DripInfo where
  state : Bool
  duration : Int
  startTime : Int
  days : Int
  deriving DecidableEq

structure GreenHouseInfo where
  temp : Int
  fanState : Fin 2 → Bool
  ventState : Bool
  dripInfo : Fin 3 → DripInfo
  fanTempOn : Int
  fanTempOff : Int
  sntpSec : Int
  sntpMin : Int
  sntpHour : Int
  sntpDay : Int
  sec : Int
  min : Int
  hour : Int
  day : Int
  timeIsValid : Bool

/-! ## The world -/

/-- What a call does to the outside. `valve` marks a call of `Control_Drip` for one of the three
drip systems, with the direction its command text asks for. -/
inductive Event where
  | gpio (pin : Pin) (level : Bool)
  | nvs (key : Text) (val : Int)
  | publish (topic payload : Text)
  | valve (num : Fin 3) (on : Bool)
  deriving DecidableEq

structure World where
  -- `greenHouseInfo` of `main.c`
  info : GreenHouseInfo
  -- the level of each GPIO output
  gpio : Pin → Bool
  -- the keys of the flash namespace `storage`
  flash : Text → Option Int
  -- `temp`, `humidity` and the histories of `update.c`
  temp : Int
  humidity : Int
  tempHistory : Text
  humidityHistory : Text
  dummyHistory : Text
  -- the static of `update_fan`
  fanStatus : Bool
  -- the statics of `update_drip`
  dripStatus : Fin 3 → Bool
  prevTimeInMin : Int
  timeRollOver : Bool
  -- the static of `update_time`
  mSecLastSNTP : Int
  trace : List Event

namespace World

def emit (e : Event) (w : World) : World := { w with trace := w.trace ++ [e] }

/-- `greenHouseInfo.dripInfo[num] = f(greenHouseInfo.dripInfo[num])`. -/
def modifyDrip (num : Fin 3) (f : DripInfo → DripInfo) (w : World) : World :=
  { w with info := { w.info with
      dripInfo := Function.update w.info.dripInfo num (f (w.info.dripInfo num)) } }

def setDripState (num : Fin 3) (s : Bool) : World → World := modifyDrip num ({ · with state := s })

def gpioSetLevel (pin : Pin) (level : Bool) (w : World) : World :=
  { w.emit (.gpio pin level) with gpio := Function.update w.gpio pin level }

end World

/-- What a call that dereferences a NULL pointer ends in. -/
inductive Fault where
  | nullRead
  | nullWrite
  deriving DecidableEq

/-- The depth of the two histories (`mqtt.h`), in bytes. -/
def historyDepth : Nat := 12 * 24

def memcpy (dst : Text) (off : Nat) (src : Text) (n : Nat) : Text :=
  dst.take off ++ src.take n ++ dst.drop (off + n)

/-- RAM as the startup code leaves it, with the flash as it is: every global and static is zero. -/
def cleared (flash : Text → Option Int) : World where
  info :=
    { temp := 0, fanState := fun _ => false, ventState := false
      dripInfo := fun _ => ⟨false, 0, 0, 0⟩
      fanTempOn := 0, fanTempOff := 0
      sntpSec := 0, sntpMin := 0, sntpHour := 0, sntpDay := 0
      sec := 0, min := 0, hour := 0, day := 0, timeIsValid := false }
  gpio := fun _ => false
  flash := flash
  temp := 0
  humidity := 0
  tempHistory := List.replicate historyDepth 0
  humidityHistory := List.replicate historyDepth 0
  dummyHistory := List.replicate historyDepth 0
  fanStatus := false
  dripStatus := fun _ => false
  prevTimeInMin := 0
  timeRollOver := false
  mSecLastSNTP := 0
  trace := []

end GreenHouse
