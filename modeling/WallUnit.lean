import WallUnit.Foundations.Machine
import WallUnit.Foundations.Scanner
import WallUnit.Foundations.Walk
import WallUnit.Firmware.AudioOut.Stream
import WallUnit.Firmware.AudioOut.Lifecycle
import WallUnit.Firmware.AudioOut.Alignment
import WallUnit.Firmware.Ota
import WallUnit.Firmware.Ld2410c
import WallUnit.Firmware.WavParse
import WallUnit.Firmware.HttpClient
import WallUnit.Server.Registry.Accuracy
import WallUnit.Firmware.WakeWord.Gates
import WallUnit.Firmware.WakeWord.Pause
import WallUnit.Firmware.WakeWord.Trigger
import WallUnit.Foundations.Window
import WallUnit.Firmware.WakeWord.QuietBefore
import WallUnit.Firmware.OpusStream
import WallUnit.Firmware.VoiceTurn.Capture
import WallUnit.Firmware.VoiceTurn.Upload
import WallUnit.Foundations.Python
import WallUnit.Server.Tools
import WallUnit.Server.Composer
import WallUnit.Foundations.Bytes
import WallUnit.Server.Streaming
import WallUnit.Firmware.WsClient.Assembly
import WallUnit.Firmware.WsClient.Events
import WallUnit.Firmware.WsClient.Reassembly
import WallUnit.Wire.StreamAgreement
import WallUnit.Server.StreamResult
import WallUnit.Server.PendingResults
import WallUnit.Server.OpusDecode
import WallUnit.Wire.OpusFraming
import WallUnit.Firmware.TwoPhase.Moves
import WallUnit.Firmware.TwoPhase.Isolation
import WallUnit.Firmware.TwoPhase.Expectation
import WallUnit.Firmware.TwoPhase.Delivery
import WallUnit.Firmware.Ld2410c.Frames
import WallUnit.Firmware.WavChunks
import WallUnit.Firmware.VoiceTurn.PlayWav
import WallUnit.Firmware.WakeWord.Feed
import WallUnit.Foundations.EndPoint
import WallUnit.Firmware.VoiceTurn.EndPointing
import WallUnit.Foundations.Json
import WallUnit.Server.ExtractJson
import WallUnit.Foundations.FirstBest
import WallUnit.Server.EntityMatch
import WallUnit.Server.ResolveEntity
import WallUnit.Foundations.Regex
import WallUnit.Server.Transcript
import WallUnit.Firmware.AudioIn
import WallUnit.Firmware.WakeWord.Evidence
import WallUnit.Firmware.WsClient.StateFrame
import WallUnit.Foundations.CheckedInt
import WallUnit.Firmware.Bme280
import WallUnit.Foundations.Ownership
import WallUnit.Firmware.VoiceTurn.Execute
import WallUnit.Firmware.AppMain
import WallUnit.Server.VoiceTurn
import WallUnit.Wire.Session
import WallUnit.Wire.TurnAgreement
import WallUnit.Wire.DeliveryPaths
import WallUnit.Firmware.Microfrontend.Bits
import WallUnit.Firmware.Microfrontend.Roots
import WallUnit.Foundations.DigitRoot
import WallUnit.Foundations.Smoothing
import WallUnit.Firmware.Microfrontend.NoiseReduction
import WallUnit.Foundations.Logarithm
import WallUnit.Firmware.Microfrontend.LogScale
import WallUnit.Firmware.Microfrontend.PcanGainControl
import WallUnit.Firmware.Wifi
import WallUnit.Firmware.Followup
import WallUnit.Firmware.CaptureRing
import WallUnit.Foundations.Packing
import WallUnit.Firmware.Microfrontend.Filterbank
import WallUnit.Server.Route
import WallUnit.Server.StatesCache
import WallUnit.Firmware.LogServer
import WallUnit.Firmware.LogServer.Clients
