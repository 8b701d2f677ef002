import SmtpSink.Utf8Proofs
import SmtpSink.UnicodeCaseTables
import SmtpSink.UnicodeProofs
import SmtpSink.ReaderProofs
import SmtpSink.RecordProofs
import SmtpSink.SessionProofs
import SmtpSink.TurnProofs
import SmtpSink.RunProofs
import SmtpSink.ConnectionProofs
import SmtpSink.AuthGateProofs
import SmtpSink.ForwardProofs
import SmtpSink.EnvelopeProofs
import SmtpSink.UpgradeProofs
import SmtpSink.ReplyProofs
import SmtpSink.StoreProofs
import SmtpSink.WebsocketProofs
import SmtpSink.SqliteStoreProofs
import SmtpSink.JsonProofs
import SmtpSink.OrderByProofs
import SmtpSink.LikeProofs
import SmtpSink.SearchProofs
import SmtpSink.RetentionProofs
import SmtpSink.SqliteHistoryProofs
import SmtpSink.AcknowledgeProofs
import SmtpSink.TruncationProofs
import SmtpSink.DeliveryProofs
import SmtpSink.SinkProofs
import SmtpSink.ServerProofs
import SmtpSink.ShutdownProofs
import SmtpSink.RefusalProofs
import SmtpSink.EightBitProofs
import SmtpSink.SqliteAtomicProofs
import SmtpSink.AttachmentProofs
import SmtpSink.Base64Proofs
import SmtpSink.ChannelProofs
import SmtpSink.CredentialProofs
import SmtpSink.RelayProofs
import SmtpSink.CompareProofs
import SmtpSink.Rfc3339Proofs
import SmtpSink.DateFilterProofs
import SmtpSink.KeyedProofs
import SmtpSink.LagProofs
import SmtpSink.ListingProofs
import SmtpSink.FallbackProofs
import SmtpSink.RemovalProofs
import SmtpSink.ArgumentProofs
import SmtpSink.DispositionProofs
import SmtpSink.SizeProofs
import SmtpSink.JsonStringProofs
import SmtpSink.JsonValueProofs
import SmtpSink.JsonObjectProofs
import SmtpSink.SerdeProofs
import SmtpSink.MailboxProofs
import SmtpSink.AgeProofs
import SmtpSink.ApiProofs
import SmtpSink.WireProofs
import SmtpSink.EndToEndProofs
import SmtpSink.VisibleProofs
import SmtpSink.DrainProofs
import SmtpSink.ClientProofs
import SmtpSink.BackpressureProofs
import SmtpSink.SecrecyProofs
import SmtpSink.DialogueProofs
import SmtpSink.SnapshotProofs
