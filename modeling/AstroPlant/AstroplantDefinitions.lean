import AstroPlant.PeripheralDefinitions

/-!
# The AstroPlant definitions

The quantity types and peripheral definitions that the administration tool
inserts, all in one transaction.

They are data, and are copied from the source as they stand: names, brands,
symbolic locations, schemas, and the quantity types each of them expects, found
by their names among those inserted before. What is proved of an import does not
depend on them; they are here because the tool imports these and no others.
-/

namespace AstroPlant

def measurementInterval : Json :=
  .object [
    ("type", .string "object"),
    ("title", .string "Intervals"),
    ("required", .array [.string "measurementInterval", .string "aggregateInterval"]),
    ("properties", .object [
        ("measurementInterval", .object [
            ("title", .string "Measurement interval"),
            ("description", .string "The interval in seconds between measurements."),
            ("type", .string "integer"),
            ("minimum", .ofNat 5),
            ("default", .ofNat 60)]),
        ("aggregateInterval", .object [
            ("title", .string "Aggregate interval"),
            ("description", .string "The interval in seconds between measurement aggregation."),
            ("type", .string "integer"),
            ("minimum", .ofNat 60),
            ("default", .ofNat 1800)])])]

/-! ## Simulation definitions -/

def virtualTemperatureSensor : NewPeripheralDefinition where
  name := "Virtual temperature sensor"
  description := some "A virtual temperature sensor using the environment simulation."
  brand := some "AstroPlant Virtual"
  model := some "Temperature"
  symbolLocation := "astroplant_simulation.sensors"
  symbol := "Temperature"
  configurationSchema := .object [
    ("type", .string "object"),
    ("title", .string "Configuration"),
    ("required", .array [.string "intervals"]),
    ("properties", .object [("intervals", measurementInterval)])]
  commandSchema := none

def virtualPressureSensor : NewPeripheralDefinition where
  name := "Virtual pressure sensor"
  description := some "A virtual pressure sensor using the environment simulation."
  brand := some "AstroPlant Virtual"
  model := some "Pressure"
  symbolLocation := "astroplant_simulation.sensors"
  symbol := "Pressure"
  configurationSchema := .object [
    ("type", .string "object"),
    ("title", .string "Configuration"),
    ("required", .array [.string "intervals"]),
    ("properties", .object [("intervals", measurementInterval)])]
  commandSchema := none

def virtualBarometer : NewPeripheralDefinition where
  name := "Virtual barometer"
  description := some "A virtual barometer using the environment simulation."
  brand := some "AstroPlant Virtual"
  model := some "Barometer"
  symbolLocation := "astroplant_simulation.sensors"
  symbol := "Barometer"
  configurationSchema := .object [
    ("type", .string "object"),
    ("title", .string "Configuration"),
    ("required", .array [.string "intervals"]),
    ("properties", .object [("intervals", measurementInterval)])]
  commandSchema := none

def virtualHeater : NewPeripheralDefinition where
  name := "Virtual heater"
  description := some "A virtual heater using the environment simulation."
  brand := some "AstroPlant Virtual"
  model := some "Heater"
  symbolLocation := "astroplant_simulation.actuators"
  symbol := "Heater"
  configurationSchema := .object [("type", .string "null"), ("default", .null)]
  commandSchema := some <| .object [
    ("type", .string "object"),
    ("properties", .object [
        ("heat", .object [
            ("type", .string "number"),
            ("title", .string "Heater intensity"),
            ("minimum", .ofNat 0),
            ("maximum", .ofNat 10)])])]

def virtualRandomCamera : NewPeripheralDefinition where
  name := "Virtual random camera"
  description := some "A virtual camera to generate random images: uniform noise or abstract art."
  brand := some "AstroPlant Virtual"
  model := some "Random Camera"
  symbolLocation := "astroplant_simulation.cameras"
  symbol := "Random"
  configurationSchema := .object [
    ("type", .string "object"),
    ("title", .string "Configuration"),
    ("required", .array [.string "schedule"]),
    ("properties", .object [
        ("schedule", .object [
            ("type", .string "array"),
            ("title", .string "Capture schedule"),
            ("items", .object [
                ("type", .string "object"),
                ("required", .array [.string "time", .string "command"]),
                ("properties", .object [
                    ("time", .object [
                        ("type", .string "string"),
                        ("format", .string "time"),
                        ("title", .string "Time")]),
                    ("command", .object [
                        ("type", .string "string"),
                        ("enum", .array [.string "uniform", .string "art"]),
                        ("title", .string "Command")])])])])])]
  commandSchema := some <| .object [
    ("type", .string "string"),
    ("enum", .array [.string "art", .string "uniform"])]

def simulationDefinitions (quantityTypes : QuantityTypes) :
    List (NewPeripheralDefinition × List Int) :=
  [(virtualTemperatureSensor, [quantityTypes.temperature]),
    (virtualPressureSensor, [quantityTypes.pressure]),
    (virtualBarometer,
      [quantityTypes.temperature, quantityTypes.pressure, quantityTypes.humidity]),
    (virtualHeater, []),
    (virtualRandomCamera, [])]

/-! ## Devices -/

def localDataLogger : NewPeripheralDefinition where
  name := "Local data logger"
  description := some "Logs aggregate measurement data locally."
  brand := some "AstroPlant"
  model := some "Logger"
  symbolLocation := "peripheral"
  symbol := "LocalDataLogger"
  configurationSchema := .object [
    ("type", .string "object"),
    ("title", .string "Configuration"),
    ("required", .array [.string "storagePath"]),
    ("properties", .object [
        ("storagePath", .object [
            ("title", .string "Storage path"),
            ("description", .string
                ("The path to store log files locally. Either absolute, or relative to "
                  ++ "the program working directory.")),
            ("type", .string "string"),
            ("default", .string "./data")])])]
  commandSchema := none

def astroplantAirTemperatureSensor : NewPeripheralDefinition where
  name := "AstroPlant air temperature sensor"
  description := some "Measures air temperature and humidity."
  brand := some "Asair"
  model := some "AM2302"
  symbolLocation := "astroplant_peripheral_device_library.dht22"
  symbol := "Dht22"
  configurationSchema := .object [
    ("type", .string "object"),
    ("title", .string "Configuration"),
    ("required", .array [.string "intervals", .string "gpioAddress"]),
    ("properties", .object [
        ("intervals", measurementInterval),
        ("gpioAddress", .object [
            ("title", .string "GPIO address"),
            ("description", .string "The pin number the sensor is connected to."),
            ("type", .string "integer"),
            ("default", .ofNat 17)])])]
  commandSchema := none

def astroplantAirCO2Sensor : NewPeripheralDefinition where
  name := "AstroPlant air CO² sensor"
  description := some "Measures carbon dioxide concentration in the air."
  brand := none
  model := some "MH-Z19"
  symbolLocation := "astroplant_peripheral_device_library.mh_z19"
  symbol := "MhZ19"
  configurationSchema := .object [
    ("type", .string "object"),
    ("title", .string "Configuration"),
    ("required", .array [.string "intervals", .string "serialDeviceFile"]),
    ("properties", .object [
        ("intervals", measurementInterval),
        ("serialDeviceFile", .object [
            ("title", .string "Serial device"),
            ("description", .string "The device file name of the serial interface."),
            ("type", .string "string"),
            ("default", .string "/dev/ttyS0")])])]
  commandSchema := none

def astroplantLightSensor : NewPeripheralDefinition where
  name := "AstroPlant light sensor"
  description := some "Measures light intensity."
  brand := none
  model := some "BH1750"
  symbolLocation := "astroplant_peripheral_device_library.bh1750"
  symbol := "Bh1750"
  configurationSchema := .object [
    ("type", .string "object"),
    ("title", .string "Configuration"),
    ("required", .array [.string "intervals", .string "i2cAddress"]),
    ("properties", .object [
        ("intervals", measurementInterval),
        ("i2cAddress", .object [
            ("title", .string "I2C address"),
            ("description", .string "The I2C address of this device."),
            ("type", .string "string"),
            ("default", .string "0x23")])])]
  commandSchema := none

def astroplantWaterTemperatureSensor : NewPeripheralDefinition where
  name := "AstroPlant water temperature sensor"
  description := some "Measures water temperature."
  brand := none
  model := some "DS18B20"
  symbolLocation := "astroplant_peripheral_device_library.ds18b20"
  symbol := "Ds18b20"
  configurationSchema := .object [
    ("type", .string "object"),
    ("title", .string "Configuration"),
    ("required", .array [.string "intervals"]),
    ("properties", .object [
        ("intervals", measurementInterval),
        ("oneWireDeviceId", .object [
            ("type", .string "string"),
            ("title", .string "1-Wire device identifier"),
            ("description", .string
                "The 1-Wire device ID to filter on. Keep blank to not filter on device IDs.")])])]
  commandSchema := none

def astroplantFans : NewPeripheralDefinition where
  name := "AstroPlant fans"
  description := some "AstroPlant fans controlled through PWM."
  brand := none
  model := some "24V DC"
  symbolLocation := "astroplant_peripheral_device_library.pwm"
  symbol := "Pwm"
  configurationSchema := .object [
    ("type", .string "object"),
    ("title", .string "Configuration"),
    ("required", .array [.string "gpioAddresses"]),
    ("properties", .object [
        ("gpioAddresses", .object [
            ("title", .string "GPIO addresses"),
            ("description", .string "The GPIO addresses this logical fan device controls."),
            ("type", .string "array"),
            ("items", .object [("type", .string "integer")]),
            ("default", .array [.ofNat 16, .ofNat 19])])])]
  commandSchema := some <| .object [
    ("type", .string "object"),
    ("required", .array []),
    ("properties", .object [
        ("intensity", .object [
            ("type", .string "number"),
            ("title", .string "Fan intensity"),
            ("description", .string "The fan intensity as a percentage of full power."),
            ("minimum", .ofNat 0),
            ("maximum", .ofNat 100)])])]

def astroplantLEDPanel : NewPeripheralDefinition where
  name := "AstroPlant LED panel"
  description := some "AstroPlant LED panel controlled through PWM."
  brand := some "AstroPlant"
  model := some "mk06"
  symbolLocation := "astroplant_peripheral_device_library.led_panel"
  symbol := "LedPanel"
  configurationSchema := .object [
    ("type", .string "object"),
    ("title", .string "Configuration"),
    ("required", .array [
        .string "gpioAddressBlue",
        .string "gpioAddressRed",
        .string "gpioAddressFarRed"]),
    ("properties", .object [
        ("gpioAddressBlue", .object [
            ("title", .string "GPIO address blue"),
            ("description", .string "The GPIO address for PWM control of the blue LED."),
            ("type", .string "integer"),
            ("default", .ofNat 21)]),
        ("gpioAddressRed", .object [
            ("title", .string "GPIO address red"),
            ("description", .string "The GPIO address for PWM control of the red LED."),
            ("type", .string "integer"),
            ("default", .ofNat 20)]),
        ("gpioAddressFarRed", .object [
            ("title", .string "GPIO address far-red"),
            ("description", .string "The GPIO address for PWM control of the far-red LED."),
            ("type", .string "integer"),
            ("default", .ofNat 18)])])]
  commandSchema := some <| .object [
    ("type", .string "object"),
    ("title", .string "LED brightness"),
    ("description", .string "The LED brightnesses as percentage of full brightness."),
    ("required", .array []),
    ("properties", .object [
        ("blue", .object [
            ("type", .string "number"),
            ("minimum", .ofNat 0),
            ("maximum", .ofNat 100)]),
        ("red", .object [
            ("type", .string "number"),
            ("minimum", .ofNat 0),
            ("maximum", .ofNat 100)]),
        ("farRed", .object [
            ("type", .string "number"),
            ("minimum", .ofNat 0),
            ("maximum", .ofNat 100)])])]

def astroplantCamera : NewPeripheralDefinition where
  name := "AstroPlant Camera"
  description := some
    ("AstroPlant camera control implementation for the Raspberry Pi V2 cameras (Normal and "
      ++ "NoIR) for normal, NIR and NDVI captures.")
  brand := some "Raspberry"
  model := some "Camera V2"
  symbolLocation := "astroplant_peripheral_device_library.pi_camera_v2"
  symbol := "PiCameraV2"
  configurationSchema := .object [
    ("type", .string "object"),
    ("title", .string "Configuration"),
    ("required", .array [.string "camera", .string "schedule"]),
    ("properties", .object [
        ("camera", .object [("type", .string "string"), ("enum", .array [.string "piCameraV2"])]),
        ("schedule", .object [
            ("type", .string "array"),
            ("title", .string "Capture schedule"),
            ("items", .object [
                ("type", .string "object"),
                ("required", .array [.string "time", .string "command"]),
                ("properties", .object [
                    ("time", .object [
                        ("type", .string "string"),
                        ("format", .string "time"),
                        ("title", .string "Time")]),
                    ("command", .object [
                        ("type", .string "string"),
                        ("enum", .array [
                            .string "uncontrolled",
                            .string "regular",
                            .string "nir",
                            .string "ndvi"]),
                        ("title", .string "Command")])])])])])]
  commandSchema := some <| .object [
    ("type", .string "string"),
    ("enum", .array [.string "uncontrolled", .string "regular", .string "nir", .string "ndvi"]),
    ("title", .string "Command")]

def astroplantDefinitions (quantityTypes : QuantityTypes) :
    List (NewPeripheralDefinition × List Int) :=
  [(localDataLogger, []),
    (astroplantAirTemperatureSensor, [quantityTypes.temperature, quantityTypes.humidity]),
    (astroplantAirCO2Sensor, [quantityTypes.concentration]),
    (astroplantLightSensor, [quantityTypes.lightIntensity]),
    (astroplantWaterTemperatureSensor, [quantityTypes.temperature]),
    (astroplantFans, []),
    (astroplantLEDPanel, []),
    (astroplantCamera, [])]

/-! ## The transaction -/

def insertPds (strategy : ExistingPeripheralDefinitionStrategy) :
    List (NewPeripheralDefinition × List Int) → Tx Store DieselError Unit
  | [] => pure ()
  | (new, expectedQuantityTypes) :: definitions => do
      insertPd new expectedQuantityTypes strategy
      insertPds strategy definitions

def insertSimulationDefinitions (quantityTypes : QuantityTypes)
    (strategy : ExistingPeripheralDefinitionStrategy) : Tx Store DieselError Unit :=
  insertPds strategy (simulationDefinitions quantityTypes)

def insertAstroplantDefinitions (simulation : InsertSimulationDefinitions)
    (strategy : ExistingPeripheralDefinitionStrategy) : Tx Store DieselError Unit := do
  let temperature ← selectOrInsertQt "Temperature" "Degrees Celsius" (some "°C")
  let pressure ← selectOrInsertQt "Pressure" "Hectopascal" (some "hPa")
  let humidity ← selectOrInsertQt "Humidity" "Percent" (some "%")
  let concentration ← selectOrInsertQt "Concentration" "Parts per million" (some "PPM")
  let lightIntensity ← selectOrInsertQt "Light intensity" "Lux" (some "lx")
  let quantityTypes := { temperature, pressure, humidity, concentration, lightIntensity }
  match simulation with
  | .yes => insertSimulationDefinitions quantityTypes strategy
  | .no => pure ()
  insertPds strategy (astroplantDefinitions quantityTypes)

end AstroPlant
