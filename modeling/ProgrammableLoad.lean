import ProgrammableLoad.Touch.Release
import ProgrammableLoad.Gui.DoubleBuffer
import ProgrammableLoad.Gpio.PinConfig
import ProgrammableLoad.Gpio.Coherence
import ProgrammableLoad.Idprom.Discovery
import ProgrammableLoad.Rpc.Isolation
import ProgrammableLoad.Rpc.Batch
import ProgrammableLoad.Rpc.Failures
import ProgrammableLoad.Rpc.Grouping
import ProgrammableLoad.Rpc.Registry
import ProgrammableLoad.Rpc.UiSession
import ProgrammableLoad.Rpc.ConfdProxy
import ProgrammableLoad.Led.Frame
import ProgrammableLoad.Buttons.Events
import ProgrammableLoad.Rpc.Totality
import ProgrammableLoad.Rpc.IndicatorOrder
import ProgrammableLoad.Rpc.GuiTotality
import ProgrammableLoad.Led.Accepted
import ProgrammableLoad.Idprom.Permutation
import ProgrammableLoad.Idprom.Texts
import ProgrammableLoad.Idprom.Narrowing
import ProgrammableLoad.Idprom.DriverOrder
import ProgrammableLoad.Touch.Rotation
import ProgrammableLoad.Touch.Indexing
import ProgrammableLoad.Touch.Stream
import ProgrammableLoad.Led.Current
import ProgrammableLoad.Lcd.Nt35510
import ProgrammableLoad.UBoot.Hash
import ProgrammableLoad.Gui.Renderer
import ProgrammableLoad.Gui.VersionScreen
import ProgrammableLoad.Coproc.Lifecycle
import ProgrammableLoad.Coproc.Endpoints
import ProgrammableLoad.Splash.Glue
import ProgrammableLoad.Splash.Drawing
import ProgrammableLoad.Rpc.MeasurementCallbacks
import ProgrammableLoad.Gui.Callbacks
import ProgrammableLoad.Idprom.Base32Encoder
import ProgrammableLoad.Idprom.Base32Decoder
import ProgrammableLoad.Rpc.MeasurementPath
import ProgrammableLoad.Splash.Requests
