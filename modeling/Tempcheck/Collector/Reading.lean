import Tempcheck.Chrono.DateTime
import Mathlib.Algebra.Order.Field.Rat

/-!
# Sensor readings

`SensorReading` is what every collector returns and what the store keeps.  A temperature
is an `f64`.  The model takes a number as the exact rational it denotes and keeps `NaN`
apart, since the database treats it differently.
-/

namespace Tempcheck

/-- An `f64`: a number, taken exactly, or `NaN`. -/
inductive F64 where
  | exact (q : Rat)
  | nan
deriving DecidableEq

/-- `SensorReading`. -/
structure SensorReading where
  sensorName : String
  temperatureC : F64
  recordedAt : DateTime
deriving DecidableEq

/-- The temperature of a reading that has one. -/
def SensorReading.degrees (r : SensorReading) : Rat :=
  match r.temperatureC with
  | .exact q => q
  | .nan => 0

end Tempcheck
