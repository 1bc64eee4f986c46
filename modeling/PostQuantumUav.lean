import PostQuantumUav.Apqe.AnswerAttribution
import PostQuantumUav.Apqe.ApqeProtocol
import PostQuantumUav.Apqe.CredentialLookups
import PostQuantumUav.Apqe.CredentialRoundTrip
import PostQuantumUav.Apqe.FragmentedUdp
import PostQuantumUav.Apqe.HonestParties
import PostQuantumUav.Apqe.HonestSession
import PostQuantumUav.Apqe.ResponderAcceptance
import PostQuantumUav.Gcs.AcknowledgedPaths
import PostQuantumUav.Gcs.AuditedLedger
import PostQuantumUav.Gcs.Duplicates
import PostQuantumUav.Library.Interaction.Discipline
import PostQuantumUav.Puav.Boot
import PostQuantumUav.Puav.CanonicalEncodings
import PostQuantumUav.Puav.Lms.Binding
import PostQuantumUav.Puav.Lms.Standard
import PostQuantumUav.Puav.MessageDelivery
import PostQuantumUav.Puav.ProposedUavProtocol
import PostQuantumUav.Puav.ProtocolRoutines
import PostQuantumUav.Transport.MemorySafety
import PostQuantumUav.Transport.ReceivedBytes
import PostQuantumUav.Transport.UntakenDatagrams
import PostQuantumUav.Library.Interaction.FailStop
import PostQuantumUav.Puav.Lms.Building
import PostQuantumUav.Library.Interaction.Moves
import PostQuantumUav.Puav.Lms.Signing
import PostQuantumUav.Puav.Marks.Life
import PostQuantumUav.Puav.OneTimeIndices
import PostQuantumUav.Puav.SeedErasure
import PostQuantumUav.Puav.SessionSecrets
import PostQuantumUav.Transport.SessionIsolation
import PostQuantumUav.Apqe.Enrolment
import PostQuantumUav.Apqe.QueryAccounts
import PostQuantumUav.Apqe.SessionClock
import PostQuantumUav.Apqe.SessionDurations
import PostQuantumUav.Apqe.WrappedSession
import PostQuantumUav.Library.Rfc5869
import PostQuantumUav.Puav.Hkdf
import PostQuantumUav.Puav.ResultRecord
import PostQuantumUav.Gcs.NotFound
import PostQuantumUav.Puav.Trace.ResponderIndices
import PostQuantumUav.Puav.Trace.Agreement
import PostQuantumUav.Puav.Honest.Enrolled
import PostQuantumUav.Puav.Trace.Secrecy
import PostQuantumUav.Puav.Lms.Forgery
import PostQuantumUav.Transport.SentMessages
import PostQuantumUav.Gcs.AuditEvidence
import PostQuantumUav.Puav.Honest.Campaign
import PostQuantumUav.Puav.Lms.Refinement
