import Affine.Aime.Session
import Affine.Core.SliderLink
import Affine.Mai2.Frame
import Affine.Mai2.Device
import Affine.Mai2.Sources
import Affine.Chuni.Started
import Affine.Lib.Versioned
import Affine.Mai2.Led
import Affine.Mai2.Link
import Affine.Mai2.SerialLoop
import Affine.Mai2.VendorLoop
import Affine.Mai2.LedDelivery
import Affine.Aime.ReadSequence
import Affine.Mai2.FalseHeader
import Affine.Mai2.Coin
import Affine.Mai2.DropRace
import Affine.Mai2.Connected
import Affine.Mai2.Fade
import Affine.Chuni.Leds
import Affine.Chuni.Loop
import Affine.Mercury.Loop
import Affine.Sliders.Connections
import Affine.Pages.Sequence
import Affine.Mai2.SerialReader
import Affine.Mai2.CoinPulse
import Affine.Aime.Request
import Affine.Mai2.TouchHid
import Affine.Core.ComName
import Affine.Mai2.LedSuspension
import Affine.Mai2.ClosedSession
import Affine.Mai2.Attach
import Affine.Mai2.SerialPass
import Affine.Core.SliderBuffer
import Affine.Aime.Decoder
import Affine.Aime.Caller
import Affine.Mai2.TouchBits
import Affine.Mai2.ConcurrentFade
import Affine.Core.HwId
import Affine.Core.Ini
import Affine.Lib.Retry
import Affine.Mai2.Queries
import Affine.Mai2.SerialQueries
import Affine.Mai2.BoardInfo
import Affine.Mai2.TouchCallback
import Affine.Mai2.Handover
import Affine.Mai2.GameInput
import Affine.Core.Discovery
import Affine.Chuni.Reports
import Affine.Mercury.Reports
import Affine.Core.SharedPage
import Affine.Pages.Sections
import Affine.Core.OverlappedIo
import Affine.Core.OverlappedHandles
import Affine.Aime.OverWire
