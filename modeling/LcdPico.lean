import LcdPico.Decoder34401a
import LcdPico.Lib.Machine
import LcdPico.DecoderStep
import LcdPico.Framing
import LcdPico.MessageFrame
import LcdPico.FreshStart
import LcdPico.AnnunciatorFrame
import LcdPico.ByteFifo
import LcdPico.Commands
import LcdPico.RunCmd
import LcdPico.Config
import LcdPico.Settings
import LcdPico.FailedCommand
import LcdPico.RangeCheck
import LcdPico.Lib.Base64
import LcdPico.Lib.DottedQuad
import LcdPico.HostPlatform
import LcdPico.Compound
import LcdPico.ConfigJson
import LcdPico.ConfigCodec
import LcdPico.SaveReload
import LcdPico.SshKeys
import LcdPico.RequestSuccess
import LcdPico.Httpd
import LcdPico.StatsRequests
import LcdPico.Lib.Regex
import LcdPico.MessageGrammar
import LcdPico.MessageFlags
import LcdPico.Display
import LcdPico.CellLayout
import LcdPico.WebPage
import LcdPico.ShownText
import LcdPico.Redraw
import LcdPico.DisplayFilter
import LcdPico.StatusSnapshot
import LcdPico.Signals
import LcdPico.ShiftIndicator
import LcdPico.SckEdge
import LcdPico.BitAssembly
import LcdPico.Synchronised
import LcdPico.Bounds
import LcdPico.Lib.CheckedArray
import LcdPico.CheckedDecoder
import LcdPico.Console
import LcdPico.AccessList
import LcdPico.AccessRoundTrip
import LcdPico.PersistentMemory
import LcdPico.BlinkingCells
import LcdPico.MessageText
import LcdPico.Getstring
import LcdPico.Upload
import LcdPico.UploadLines
import LcdPico.Flash
import LcdPico.FlashStore
import LcdPico.CopyFile
import LcdPico.PemFile
import LcdPico.Lib.CInt
import LcdPico.IntPower
import LcdPico.Lib.RegisterFile
import LcdPico.Lt7680
import LcdPico.RegisterFrame
import LcdPico.BitFields
import LcdPico.BlockCopy
import LcdPico.UnitArguments
import LcdPico.SensorIndex
import LcdPico.Lib.Tlv
import LcdPico.DhcpOptions
import LcdPico.MaskText
import LcdPico.KeyText
import LcdPico.JsonStrings
import LcdPico.Lib.CharArray
import LcdPico.StringAppend
import LcdPico.Lib.ByteBits
import LcdPico.Lib.Crc
import LcdPico.Crc32
import LcdPico.Lib.LittleEndian
import LcdPico.PersistentImage
import LcdPico.Panel
import LcdPico.BusPanel
import LcdPico.Lib.Sweep
import LcdPico.I2cPolling
import LcdPico.Lib.Periodic
import LcdPico.MainLoop
import LcdPico.Lib.Blit
import LcdPico.VideoMemory
import LcdPico.DisplayMemory
import LcdPico.TilePixels
import LcdPico.PanelPixels
import LcdPico.PanelText
import LcdPico.Lib.Clocked
import LcdPico.WifiRejoin
import LcdPico.SavedConfig
import LcdPico.VirtualSensors
import LcdPico.Syslog
