import IotRange.AppFields

/-! # The setters of the local interface (app_config.c)

The shell calls them with any argument. Two of them store through `app_field_set`.
-/
namespace IotRange.AppConfig
open AppProtocol AppFields
set_option autoImplicit false

def appConfigSetBattery (f : Store) (level : UInt8) : Store := appFieldSetBattery f level
def appConfigSetTemperature (f : Store) (temp : Int16) : Store := appFieldSetTemperature f temp
def appConfigSetDistance (f : Store) (dist : UInt16) : Store := appFieldSetDistance f dist
def appConfigSetPosition (f : Store) (pos : UInt8) : Store := appFieldSetPosition f pos
def appConfigSetMode (f : Store) (mode : UInt8) : Store := appFieldSet f fieldMode [mode]
def appConfigSetUpdateTime (f : Store) (interval : UInt16) : Store :=
  appFieldSet f fieldUpdateInterval [(interval >>> 8).toUInt8, interval.toUInt8]
def appConfigSetGnssFix (f : Store) (fix_ : UInt8) : Store := appFieldSetGnssFix f fix_
def appConfigSetLatitude (f : Store) (lat : Int32) : Store := appFieldSetLatitude f lat
def appConfigSetLongitude (f : Store) (lng : Int32) : Store := appFieldSetLongitude f lng
def appConfigSetAltitude (f : Store) (alt : Int16) : Store := appFieldSetAltitude f alt

inductive SetterCall
  | battery (level : UInt8)
  | temperature (temp : Int16)
  | distance (dist : UInt16)
  | position (pos : UInt8)
  | mode (value : UInt8)
  | updateTime (interval : UInt16)
  | gnssFix (fix_ : UInt8)
  | latitude (lat : Int32)
  | longitude (lng : Int32)
  | altitude (alt : Int16)

def SetterCall.apply (f : Store) : SetterCall → Store
  | .battery level => appConfigSetBattery f level
  | .temperature temp => appConfigSetTemperature f temp
  | .distance dist => appConfigSetDistance f dist
  | .position pos => appConfigSetPosition f pos
  | .mode value => appConfigSetMode f value
  | .updateTime interval => appConfigSetUpdateTime f interval
  | .gnssFix fix_ => appConfigSetGnssFix f fix_
  | .latitude lat => appConfigSetLatitude f lat
  | .longitude lng => appConfigSetLongitude f lng
  | .altitude alt => appConfigSetAltitude f alt

end IotRange.AppConfig
