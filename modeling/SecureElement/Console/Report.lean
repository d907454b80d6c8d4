import SecureElement.Bytes.Hex
import SecureElement.Console.Diagnosis
import SecureElement.Session.State
import SecureElement.Text.Utf8

/-!
# Reports

What the tool prints about the element and about the session.
-/

namespace SecureElement.Console

/-- A text on a line of its own. -/
def line (text : String) : String := text ++ "\n"

/-- An answer to reset. -/
def answerReport (a : AnswerToReset) : String :=
  String.join <| List.map line
    ["Protocol version: " ++ toString a.version.toNat,
     "Vendor ID: " ++ Hex.encodeUpper a.vendor,
     "Block waiting time: " ++ Time.render a.blockWaitingTime,
     "IFSC: " ++ toString a.ifsc,
     "Physical layer: " ++ Hex.octet a.physicalLayer ++ (if a.isI2c then " (I2C)" else ""),
     "Max clock: " ++ toString a.maxClock ++ " kHz",
     "Min polling time: " ++ Time.render a.minPollingTime,
     "Guard time: " ++ Time.render a.guardTime,
     "Wake-up time: " ++ Time.render a.wakeUpTime,
     "Historical bytes: " ++ Hex.encodeUpper a.historical ++ " ("
       ++ Text.Utf8.decodeLossy a.historical ++ ")"]

/-- The answer to reset of a session, which there may not be. -/
def answerReport? : Option AnswerToReset → String
  | some a => answerReport a
  | none => line "No ATR received (the link was opened with a resynchronisation)"

/-- The counts of a session. -/
def statisticsReport (c : Statistics) : String :=
  line <| Diagnosis.block "Statistics"
    [("blocks_sent", toString c.blocksSent),
     ("blocks_received", toString c.blocksReceived),
     ("retransmissions", toString c.retransmissions),
     ("checksum_failures", toString c.epilogueMismatches),
     ("wtx_requests", toString c.extensions),
     ("resyncs", toString c.resyncs)]

end SecureElement.Console
