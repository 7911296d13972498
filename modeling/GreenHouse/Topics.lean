import GreenHouse.Lib.CText

/-!
# The topics (`mqtt.h`)

The nine topics of one drip differ from those of another in one digit, so they are a family in the
number of the drip.
-/

namespace GreenHouse

open CText

def tempRequestTopic : Text := ascii "/greenhouse/temp/request"
def tempStatusTopic : Text := ascii "/greenhouse/temp"
def tempHistoryRequestTopic : Text := ascii "/greenhouse/temp/history/request"
def tempHistoryTopic : Text := ascii "/greenhouse/temp/history"

def humidityRequestTopic : Text := ascii "/greenhouse/humidity/request"
def humidityStatusTopic : Text := ascii "/greenhouse/humidity"
def humidityHistoryRequestTopic : Text := ascii "/greenhouse/humidity/history/request"
def humidityHistoryTopic : Text := ascii "/greenhouse/humidity/history"

def timeTopic : Text := ascii "/greenhouse/time"

def fanGetStateSubTopic : Text := ascii "/greenhouse/fan/get_state_sub"
def fanGetStatePubTopic : Text := ascii "/greenhouse/fan/get_state_pub"
def fanSetStateSubTopic : Text := ascii "/greenhouse/fan/set_state_sub"
def fanGetTempOnSubTopic : Text := ascii "/greenhouse/fan/get_temp_on_sub"
def fanGetTempOnPubTopic : Text := ascii "/greenhouse/fan/get_temp_on_pub"
def fanSetTempOnSubTopic : Text := ascii "/greenhouse/fan/set_temp_on_sub"

/-- A topic below `/greenhouse/drip1`, `/greenhouse/drip2` or `/greenhouse/drip3`. -/
def dripTopic (leaf : String) : Fin 3 → Text
  | 0 => ascii "/greenhouse/drip1" ++ ascii leaf
  | 1 => ascii "/greenhouse/drip2" ++ ascii leaf
  | 2 => ascii "/greenhouse/drip3" ++ ascii leaf

def dripRequestStatusTopic : Fin 3 → Text := dripTopic "/status/request"
def dripStatusTopic : Fin 3 → Text := dripTopic "/status"
def dripCtrlTopic : Fin 3 → Text := dripTopic "/ctrl/set"
def dripRequestStartTimeTopic : Fin 3 → Text := dripTopic "/starttime/request"
def dripSetStartTimeTopic : Fin 3 → Text := dripTopic "/starttime/set"
def dripStartTimeTopic : Fin 3 → Text := dripTopic "/starttime"
def dripRequestDurationTopic : Fin 3 → Text := dripTopic "/duration/request"
def dripSetDurationTopic : Fin 3 → Text := dripTopic "/duration/set"
def dripDurationTopic : Fin 3 → Text := dripTopic "/duration"
def dripRequestDaysTopic : Fin 3 → Text := dripTopic "/days/request"
def dripSetDaysTopic : Fin 3 → Text := dripTopic "/days/set"
def dripDaysTopic : Fin 3 → Text := dripTopic "/days"

end GreenHouse
