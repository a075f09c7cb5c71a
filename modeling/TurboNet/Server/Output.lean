import TurboNet.Server.Session
import Mathlib.Data.List.Sublists

/-!
# What a session puts on the wire

Reference: `turbonet_server.cpp`, `Session::send`.

`Session::send` starts an `async_write` at once, whatever else is being written on the socket, and
out of a vector that is destroyed when its caller returns. Pipelined requests therefore have
several writes outstanding, and the stream may see their pieces alternate
(`responses_interleave`). `output_wholeFrames` is what holds: the peer gets whole frames in the
order of the `send` calls as long as the socket takes bytes of the oldest outstanding write only,
and the part of its vector that is still to go has not been reused.
-/

namespace TurboNet

open Common

namespace Session

/-- The socket takes bytes of the oldest outstanding write only, and the vector behind it still
holds what is left of the frame. -/
def OldestFirst (s : Session) : Event → Prop
  | .transfer i _ => i = 0 ∧ ∀ w ∈ s.out.writes.head?, w.Intact
  | _ => True

instance (s : Session) : (e : Event) → Decidable (OldestFirst s e)
  | .transfer _ _ => inferInstanceAs (Decidable (_ ∧ _))
  | .readDone _ | .readFail | .respond _ | .reuse _ _ | .writeFail _ => isTrue trivial

/-- A frame handler only starts writes. -/
theorem dispatch_inOrder {s : Session} (h : Handlers) (hs : s.out.InOrder) :
    (s.dispatch h).out.InOrder := by
  rw [dispatch, onBind, forward]
  repeat' split
  all_goals first
    | exact hs
    | exact hs.start _

/-- What a read starts to write comes after what has been started. -/
theorem readDone_inOrder {s : Session} (h : Handlers) (hs : s.out.InOrder) (op : ReadOp)
    (bs : List UInt8) : (s.readDone h op bs).out.InOrder := by
  cases op with
  | header => exact hs
  | body n =>
    exact dispatch_inOrder h (s := { s with
      bodyBuf := bs
      reading := none
      handed := s.handed ++ [current h { s with bodyBuf := bs, reading := none }] }) hs

/-- Every step keeps the wire in order, if the socket takes the oldest write first. -/
theorem step_inOrder {h : Handlers} {s t : Session} {e : Event} (hc : OldestFirst s e)
    (hs : s.out.InOrder) (ht : step h s e = some t) : t.out.InOrder := by
  cases acts_of_step ht with
  | readDone op bs hop hlen => exact readDone_inOrder h hs op bs
  | readFail op hop => cases op <;> exact hs
  | respond p hheld => exact hs.start _
  | transfer i k o ho =>
    obtain ⟨rfl, hintact⟩ := hc
    exact hs.transfer (fun w hw => hintact w (List.head?_eq_getElem? .. ▸ hw)) ho
  | reuse i memory o ho => exact hs.reuse ho
  | writeFail i o ho => exact hs.fail ho

/-- In every run of a session in which the socket takes the bytes of its writes oldest first, out
of intact vectors, what has reached the peer is in every state a prefix of whole frames passed to
`send`, each at most once and in the order of the calls. -/
theorem output_wholeFrames (h : Handlers) (es : List Event)
    (hc : EveryStep (step h) (start {}) es OldestFirst) :
    EveryState (step h) (start {}) es fun s => s.out.WholeFrames := by
  have hin : EveryState (step h) (start {}) es fun s => s.out.InOrder :=
    hc.everyState Outbox.inOrder_empty fun t e t' => step_inOrder
  exact fun pre post t heq ht => (hin pre post t heq ht).wholeFrames

/-- An accepted bind request and a request that the application answers. -/
def boundAndAnswered : List Event :=
  [.readDone (Packet.header ⟨0x01, 0x00, 1, [0x61]⟩), .readDone [0x61],
    .readDone (Packet.header ⟨0x02, 0x00, 2, []⟩), .readDone [], .respond ⟨0x82, 0x00, 2, []⟩]

/-- The bind response is transferred in two pieces, then the response to the request. -/
theorem output_wholeFrames_in_pieces :
    EveryState (step ⟨.little, some fun _ => true, true⟩) (start {})
      (boundAndAnswered ++ [.transfer 0 4, .transfer 0 17, .transfer 0 10])
      fun s => s.out.WholeFrames :=
  output_wholeFrames _ _ (by decide)

/-- The response to the request is started while the bind response is being written, and the socket
takes the length field of the first and then a byte of the second. -/
theorem responses_interleave :
    ∃ s, run (step ⟨.little, some fun _ => true, true⟩) (start {})
        (boundAndAnswered ++ [.transfer 0 4, .transfer 1 1]) = some s ∧ ¬ s.out.WholeFrames := by
  obtain ⟨s, hs, hout⟩ := Option.map_eq_some_iff.mp (show
    (run (step ⟨.little, some fun _ => true, true⟩) (start {})
        (boundAndAnswered ++ [.transfer 0 4, .transfer 1 1])).map
        (fun s => (s.out.wire, s.out.started))
      = some ([0x00, 0x00, 0x00, 0x15, 0x00],
          [(bindResponse 1).wire, Packet.wire ⟨0x82, 0x00, 2, []⟩]) by decide)
  obtain ⟨hwire, hstarted⟩ := Prod.mk.inj hout
  refine ⟨s, hs, ?_⟩
  rintro ⟨fs, hsub, hpre⟩
  rw [hwire] at hpre
  rw [hstarted, ← List.mem_sublists] at hsub
  revert fs
  decide

end Session

end TurboNet
