import ZLoader.Soundness.SectionLayout
import ZLoader.Soundness.BufferReads
import ZLoader.Soundness.SectionMessages
import ZLoader.Soundness.FixupTarget
import ZLoader.Soundness.StreamEnd
import ZLoader.Soundness.StubBuffers
import ZLoader.Soundness.BootOrder
import ZLoader.Soundness.InitrdRegistration
import ZLoader.Soundness.RelocSelection
import ZLoader.Soundness.ServiceFailures
import ZLoader.Soundness.ImageLifetime
import ZLoader.Soundness.LoadOptions
import ZLoader.Soundness.PrintAgreement
import ZLoader.Soundness.EmbeddedFiles
import ZLoader.Soundness.HeaderBounds
import ZLoader.Soundness.AlignedBuffers
import ZLoader.Soundness.FixupBounds
import ZLoader.Soundness.EntryPoint
import ZLoader.Soundness.FormatDetection
import ZLoader.Soundness.SectionSearch
import ZLoader.Soundness.SectionReports
import ZLoader.Soundness.FailureCleanup
import ZLoader.Soundness.LoopTermination
import ZLoader.Soundness.Utf8Conversion
import ZLoader.Soundness.ConversionBounds
import ZLoader.Soundness.InitrdService
import ZLoader.Soundness.DevicetreeInstall
import ZLoader.Soundness.BootEntryReads
import ZLoader.Soundness.ImageSizePatch
import ZLoader.Soundness.PatchedFile
import ZLoader.Soundness.PatchAccesses
import ZLoader.Soundness.AssertedRun
import ZLoader.Soundness.FilePlaces
import ZLoader.Soundness.GuidText
import ZLoader.Soundness.NumericDirectives
import ZLoader.Soundness.ItemWidths
import ZLoader.Soundness.PartUuid
import ZLoader.Soundness.Dirname
import ZLoader.Soundness.MonotonicClock
import ZLoader.Soundness.ProtocolInterface
import ZLoader.Soundness.FileBuffers
import ZLoader.Soundness.RepeatedFixup
import ZLoader.Soundness.DevicePathText
import ZLoader.Soundness.NumeralWriting
import ZLoader.Soundness.StringOrder
import ZLoader.Soundness.StringSearch
import ZLoader.Soundness.MemoryMoves
import ZLoader.Soundness.StreamedHash
import ZLoader.Soundness.KeyEnrolment
import ZLoader.Soundness.Lz4Decoding
import ZLoader.Soundness.BootedFiles
import ZLoader.Soundness.Lz4FrameStreams
import ZLoader.Model.Lib.Lz4Codec
import ZLoader.Soundness.Lz4FrameSessions
