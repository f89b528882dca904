import MailRoom.Main
import MailRoom.Proofs.RoundTrip
import MailRoom.Proofs.Judgement
import MailRoom.Proofs.FaultKeepsState
import MailRoom.Proofs.Renaming
import MailRoom.Proofs.ActingObservers
import MailRoom.Proofs.Bounded
import MailRoom.Proofs.LongerInbox
import MailRoom.Proofs.WiderLimits
import MailRoom.Proofs.Spans
import MailRoom.Proofs.Composed
import MailRoom.Proofs.Answers
import MailRoom.Proofs.ReportedLine
import MailRoom.Proofs.CarriageReturns
import MailRoom.Proofs.Joined
import MailRoom.Proofs.ErrorPositions
import MailRoom.Proofs.Protocol
import MailRoom.Proofs.FaultLocation
import MailRoom.Proofs.Conservation
import MailRoom.Proofs.PassingPrograms
import MailRoom.Proofs.MixedNumerals
import MailRoom.Proofs.FloorEntries
import MailRoom.Observer.Registration
import MailRoom.Proofs.CallOrder
import MailRoom.Proofs.LateRegistrations
import MailRoom.Proofs.RepeatedCalls
import MailRoom.Proofs.Ledger
import MailRoom.Proofs.EndMark
