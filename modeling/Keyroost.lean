import Keyroost.Library.RustStr
import Keyroost.Library.Utf8
import Keyroost.Library.Checks
import Keyroost.Library.Sim
import Keyroost.Library.Pass
import Keyroost.Library.Bytes
import Keyroost.Library.Reader
import Keyroost.Library.Sift
import Keyroost.Library.Replace
import Keyroost.Library.Sole
import Keyroost.Library.Slots
import Keyroost.Library.Crash
import Keyroost.Proto.Commands
import Keyroost.Proto.Apdu
import Keyroost.Oath.Command
import Keyroost.Import.OathNames
import Keyroost.Import.Entry
import Keyroost.Import.Otpauth
import Keyroost.Import.Migration
import Keyroost.Import.Bulk
import Keyroost.Import.Plan
import Keyroost.Import.Run
import Keyroost.Import.PlanInvariant
import Keyroost.Import.PlanSound
import Keyroost.Import.PlanRows
import Keyroost.Import.RunSound
import Keyroost.Import.ListItems
import Keyroost.Import.QrTexts
import Keyroost.Import.Join
import Keyroost.Import.Rerun
import Keyroost.Import.FieldLoop
import Keyroost.Import.MigrationAgreement
import Keyroost.Import.Agreement
import Keyroost.Transport.ImportStore
import Keyroost.Ctap.Cbor
import Keyroost.Ctap.CborRoundTrip
import Keyroost.Ctap.CborMeasure
import Keyroost.Ctap.Entry
import Keyroost.Ctap.DeviceLabel
import Keyroost.Ctap.LargeBlobs
import Keyroost.Ctap.LargeBlobReread
import Keyroost.Ctap.LargeBlobEdits
import Keyroost.Ctap.LargeBlobCommands
import Keyroost.Ctap.Authenticator
import Keyroost.Ctap.LargeBlobExchange
import Keyroost.Ctap.LargeBlobTransfer
import Keyroost.Ctap.LabelWrite
import Keyroost.Ctap.Hid
import Keyroost.Ctap.HidFraming
import Keyroost.Ctap.HidAssembly
import Keyroost.Ctap.HidAnswers
import Keyroost.Ctap.ReaderCard
import Keyroost.Token2Otp.HidAnswers
import Keyroost.Token2Otp.RawRestore
import Keyroost.Transport.Token2PinAttempts
import Keyroost.Keyring.Record
import Keyroost.Keyring.Ring
import Keyroost.Keyring.Consistent
import Keyroost.Keyring.Format
import Keyroost.Keyring.SaltFile
import Keyroost.Keyring.Store
import Keyroost.Keyring.StoreMoves
import Keyroost.Keyring.StoreLaws
import Keyroost.Keyring.Sessions
import Keyroost.Keyring.Kept
import Keyroost.Keyring.KeptRuns
import Keyroost.Resolve.Device
import Keyroost.Resolve.Readers
import Keyroost.Resolve.NameCache
import Keyroost.Resolve.IdentityCache
import Keyroost.Resolve.ReadersByEvidence
import Keyroost.Resolve.Rows
import Keyroost.Resolve.ReadersBacked
import Keyroost.Resolve.RowsMerged
import Keyroost.Resolve.RowsUnmixed
import Keyroost.Resolve.Names
import Keyroost.Resolve.NamesPass
import Keyroost.Resolve.NamesSettle
import Keyroost.Library.Dialogue
import Keyroost.Library.Metered
import Keyroost.Library.LeadingZeros
import Keyroost.Library.Positions
import Keyroost.P12.Ber
import Keyroost.P12.BerEncoding
import Keyroost.P12.BerTotal
import Keyroost.P12.Integrity
import Keyroost.P12.Pkcs12Kdf
import Keyroost.P12.Pair
import Keyroost.P12.Work
import Keyroost.Piv.CertObject
import Keyroost.Piv.AdminData
import Keyroost.Piv.Gzip
import Keyroost.Piv.Commands
import Keyroost.Piv.ForceReset
import Keyroost.Piv.ForceResetLimits
import Keyroost.Piv.ImportRun
import Keyroost.Piv.ImportRunHonest
import Keyroost.Piv.Spki
import Keyroost.Piv.X509
import Keyroost.Piv.X509Parse
import Keyroost.Piv.Oid
import Keyroost.Piv.ValidityPeriod
import Keyroost.Token2Otp.SeedText
import Keyroost.Piv.X509RoundTrip
import Keyroost.Resolve.Select
import Keyroost.Resolve.RenameKey
import Keyroost.Resolve.SelectExact
import Keyroost.Resolve.ShellQuote
import Keyroost.Transport.AppletIo
import Keyroost.Transport.IsoCard
import Keyroost.Library.Session
import Keyroost.Piv.Metadata
import Keyroost.Piv.SlotCaches
import Keyroost.Piv.SlotCachesHonest
import Keyroost.PgpKey.Fingerprints
import Keyroost.PgpKey.Framing
import Keyroost.PgpKey.S2k
import Keyroost.PgpKey.Armor
import Keyroost.PgpKey.Files
import Keyroost.OpenPgp.KeyImportExact
import Keyroost.Token2Prog.SeedsDistinct
import Keyroost.Resolve.Recheck
import Keyroost.Token2Otp.HidFrame
import Keyroost.Library.Regroup
import Keyroost.Ctap.CredentialListing
import Keyroost.Oath.Listing
import Keyroost.Proto.CodecCanonical
import Keyroost.Proto.ShaStandard
import Keyroost.Library.Words
import Keyroost.Ctap.SshCert
import Keyroost.Ctap.CborSplit
import Keyroost.Library.BlockModes
import Keyroost.Library.Cycle
import Keyroost.Ctap.PinProtocol
import Keyroost.Ctap.ClientPin
import Keyroost.Ctap.PinAuthenticator
import Keyroost.Ctap.PinRuns
import Keyroost.Ctap.PinKept
import Keyroost.Ctap.Trace
import Keyroost.Ctap.TraceSecrets
import Keyroost.OpenPgp.CardData
import Keyroost.OpenPgp.TlvRoundTrip
import Keyroost.OpenPgp.KeySet
import Keyroost.OpenPgp.KeySetCard
import Keyroost.OpenPgp.KeySetSteps
import Keyroost.OpenPgp.KeySetTruth
import Keyroost.Library.Timeline
import Keyroost.Piv.VersionFloor
import Keyroost.Library.Padding
import Keyroost.Token2Otp.EntryPages
import Keyroost.Token2Otp.Enumerate
import Keyroost.Piv.CachedTransaction
import Keyroost.Piv.FactoryResetTold
import Keyroost.Piv.ManagementCard
import Keyroost.Transport.OathImport
import Keyroost.Transport.MoltoImport
