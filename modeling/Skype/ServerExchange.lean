import Skype.SessionTokens
import Skype.TextFraming

/-!
# A request of the client and the reply of the server

The client writes one text over TCP, the server routes it and writes one back. A text
without NUL that the header can count arrives as it was sent.
-/

namespace Skype

open Library

/-- `respond` and `receive` of `ActiveConn` over a connection, with the text that a valid
request holds behind them. -/
abbrev Connection (σ : Type) := ByteString → σ → Exec (Option ByteString × σ)

namespace ServerExchange

open TextIO

def carry (text : ByteString) : Exec (Option ByteString) := do
  let tReq := Request.new [] true
  let (_, buffer) ← respond (tReq.setData (textData text))
  let (received, req, _) ← receive tReq [buffer]
  if received then do
    let data ← req.data
    return some data.bytes
  else return none

def server (pg : Engine) (draw : Draw) (tReq : Request) : Connection Server := fun command s => do
  match ← carry command with
  | none => return (none, s)
  | some text =>
    let (reply, s) ← Router.route pg draw (tReq.setData (textData text)) s
    let data ← reply.data
    let response ← carry data.bytes
    return (response, s)

/-- A text that arrives as it is. -/
structure Carried (text : ByteString) : Prop where
  nul : 0 ∉ text
  short : text.length < 2 ^ 31 - 1

instance (text : ByteString) : Decidable (Carried text) :=
  decidable_of_iff (0 ∉ text ∧ text.length < 2 ^ 31 - 1) ⟨fun h => ⟨h.1, h.2⟩, fun h => ⟨h.1, h.2⟩⟩

def Carried.message {text : ByteString} (h : Carried text) : Router.Message :=
  ⟨text, h.short.trans (by decide)⟩

theorem carry_eq {text : ByteString} (h : Carried text) : carry text = .ok (some text) := by
  obtain ⟨hnul, hshort⟩ := h
  have hheader := createHeader_sizeToInt (n := text.length) (by omega)
  generalize List.replicate _ _ ++ _ = header at hheader
  have hrespond : respond ((Request.new [] true).setData (textData text)) =
      .ok (decide (0 ≤ sizeToInt (header ++ text).length), header ++ text) := by
    rw [respond]
    dsimp only [Request.setData, textData]
    rw [if_pos rfl, hheader]
    rfl
  have hlength := length_createHeader hheader
  have hwhole : headerLength ≤ (header ++ text).length := by
    rw [List.length_append]
    omega
  have hpieces : ∀ p ∈ [header ++ text], p ≠ [] := by
    intro p hp hempty
    rw [List.mem_singleton.mp hp] at hempty
    rw [hempty] at hwhole
    exact absurd hwhole (by decide)
  have hflat : [header ++ text].flatten = header ++ (text ++ []) := by simp
  have hframe := receive_frame (Request.new [] true) hpieces hnul hshort hheader hflat hwhole
  rw [carry]
  dsimp only
  rw [hrespond, ok_bind]
  dsimp only
  rw [hframe, ok_bind]
  rfl

theorem server_eq {pg : Engine} {draw : Draw} {tReq reply : Request} {command text : ByteString}
    {s s' : Server} (hcommand : Carried command)
    (hroute : Router.route pg draw (hcommand.message.request tReq) s = .ok (reply, s'))
    (hreply : reply.mData = some (textData text)) (htext : Carried text) :
    server pg draw tReq command s = .ok (some text, s') := by
  have hdata : reply.data = .ok (textData text) := by rw [Request.data, hreply]
  rw [server, carry_eq hcommand, ok_bind]
  dsimp only
  rw [Router.Message.request] at hroute
  rw [show tReq.setData (textData command) = tReq.setData (textData hcommand.message.text) from rfl,
    hroute, ok_bind]
  dsimp only
  rw [hdata, ok_bind, textData, carry_eq htext]
  rfl

end ServerExchange

end Skype
