import RcpFlext.BytePorts

/- A patch cord from a byte outlet to a byte inlet. The inlets of the websocket objects
   hand bytes on only while their server or open client is there. -/
namespace PatchCords
open Atoms Cells BytePorts

inductive Outlet where
  | rawDataOut
  | wsServerReceived
  | wsClientReceived
  | spppDataOut
  | slipDecoderDataOut
  | slipEncoderList
  deriving DecidableEq, Repr

inductive Inlet where
  | rawDataList
  | wsServerList (m_server : Option Unit)
  | wsClientList (m_client : Option Bool)
  | spppList
  | slipEncoderList
  | slipDecoderList
  | rcpParseList
  deriving DecidableEq, Repr

def Outlet.send : Outlet → List Char8 → List Atom
  | .rawDataOut => ParameterServerClientBase.dataOut
  | .wsServerReceived => PdWebsocketServer.received
  | .wsClientReceived => PdWebsocketClient.received
  | .spppDataOut => SPPParser.dataOut
  | .slipDecoderDataOut => SlipDecoder.dataOut
  | .slipEncoderList => SlipEncoder.mListOutput

def Inlet.receive : Inlet → List Atom → Handed
  | .rawDataList => ParameterServerClientBase.rawDataList
  | .wsServerList m_server => PdWebsocketServer.mList m_server
  | .wsClientList m_client => PdWebsocketClient.mList m_client
  | .spppList => SPPParser.mList
  | .slipEncoderList => SlipEncoder.mListData
  | .slipDecoderList => fun argv => .on (SlipDecoder.mList argv)
  | .rcpParseList => RcpParse.mListData

def Outlet.Unsigned : Outlet → Prop
  | .slipDecoderDataOut | .slipEncoderList => True
  | _ => False

def Inlet.Ready : Inlet → Prop
  | .wsServerList m_server => m_server.isSome = true
  | .wsClientList m_client => m_client = some true
  | _ => True

def Inlet.judge : Inlet → Atom → Verdict Char8 String
  | .rawDataList => rawByte
  | .wsServerList _ | .wsClientList _ | .rcpParseList => strictByte
  | .spppList | .slipEncoderList | .slipDecoderList => lenientByte

theorem judge_keeps_bytes (inlet : Inlet) : KeepsBytes inlet.judge := by
  cases inlet with
  | rawDataList => exact rawByte_keeps_bytes
  | wsServerList m_server => exact strictByte_keeps_bytes
  | wsClientList m_client => exact strictByte_keeps_bytes
  | rcpParseList => exact strictByte_keeps_bytes
  | spppList => exact lenientByte_keeps_bytes
  | slipEncoderList => exact lenientByte_keeps_bytes
  | slipDecoderList => exact lenientByte_keeps_bytes

/-- An inlet hands on what its loop keeps, if it has something to hand it to. -/
theorem receive_on_iff (inlet : Inlet) (argv : List Atom) (data : List Char8) :
    inlet.receive argv = .on data ↔ inlet.Ready ∧ survivors inlet.judge argv = .ok data := by
  cases inlet with
  | rawDataList =>
    simp only [Inlet.Ready, true_and]
    exact throughBuffer_on_iff rawByte argv data
  | wsServerList m_server =>
    simp only [Inlet.receive, Inlet.Ready, Inlet.judge, PdWebsocketServer.mList, throughBuffer_eq]
    cases survivors strictByte argv with
    | error why => simp
    | ok kept => cases m_server <;> simp
  | wsClientList m_client =>
    simp only [Inlet.receive, Inlet.Ready, Inlet.judge, PdWebsocketClient.mList]
    match m_client with
    | none => simp
    | some false => simp
    | some true => simpa using throughBuffer_on_iff strictByte argv data
  | spppList =>
    simp only [Inlet.Ready, true_and]
    exact throughBuffer_on_iff lenientByte argv data
  | slipEncoderList =>
    simp only [Inlet.Ready, true_and]
    exact throughBuffer_on_iff lenientByte argv data
  | slipDecoderList =>
    simp only [Inlet.receive, Inlet.Ready, Inlet.judge, slipDecoder_mList_eq, true_and,
      Handed.on.injEq, Except.ok.injEq]
  | rcpParseList =>
    simp only [Inlet.Ready, true_and]
    exact throughBuffer_on_iff strictByte argv data

theorem send_of_unsigned {outlet : Outlet} (unsigned : outlet.Unsigned) (data : List Char8) :
    outlet.send data = data.map setUChar := by
  cases outlet <;> first | rfl | exact False.elim unsigned

theorem send_of_signed {outlet : Outlet} (signed : ¬ outlet.Unsigned) (data : List Char8) :
    outlet.send data = data.map setChar := by
  cases outlet <;> first | rfl | exact False.elim (signed trivial)

/-- Bytes survive a cord exactly when the inlet is ready and either the outlet casts to
    unsigned char or no byte has its top bit set. -/
theorem cord_exact_iff (outlet : Outlet) (inlet : Inlet) (data : List Char8) :
    inlet.receive (outlet.send data) = .on data ↔
      inlet.Ready ∧ (outlet.Unsigned ∨ ∀ c ∈ data, c.toNat < 128) := by
  rw [receive_on_iff]
  have keeps := judge_keeps_bytes inlet
  by_cases unsigned : outlet.Unsigned
  · rw [send_of_unsigned unsigned, unsigned_survive keeps]
    simp [unsigned]
  · rw [send_of_signed unsigned, signed_survive_iff keeps]
    simp [unsigned]

/-- One byte of 195 from the raw outlet is refused by rcp.parse. -/
theorem high_byte_lost :
    Inlet.rcpParseList.Ready ∧
      Inlet.rcpParseList.receive (Outlet.rawDataOut.send [195]) ≠ .on [195] := by
  exact ⟨trivial, by decide⟩

end PatchCords
