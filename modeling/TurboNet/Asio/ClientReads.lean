import TurboNet.Asio.ClientSocket

/-!
# A connected client reads

Reference: `claude/asio_client.cpp`, `TcpClient::readHeader`, `TcpClient::readPayload`,
`TcpClient::close`, `TcpClient::handleDisconnect`, `TcpClient::connect`.

While `connected_` is set the socket should be open, with one read outstanding on it. A header with
an invalid length breaks this: its handler closes the socket and begins no read, but it does not
call `handleDisconnect`, so `connected_` stays set and nothing ever ends the connection. So does the
handler of a read of an earlier socket that comes late, since it begins the next read on whatever
socket there is then. `readable_iff` says that nothing else does.
-/

namespace TurboNet.Asio

open Common

namespace ClientSocket

variable {host : Endian} {clientId : List UInt8} {t t' : ClientSocket} {e : Event}

/-! ## The client -/

/-- `connected_` is changed by the handlers of `connect` and by `handleDisconnect`. -/
theorem client_connected_step {c c' : TcpClient} {e : TcpClient.Event}
    (h : TcpClient.step clientId c e = some c') (he : isHandler e = false)
    (hrun : e ≠ .runConnect) : c'.connected = c.connected := by
  cases TcpClient.lifeChange_of_step h with
  | same hlife | start _ hlife | stop hlife | connectFailed _ _ hlife | cleared _ _ hlife
  | expired _ _ hlife | reconnect _ _ hlife => exact congrArg (·.2.2.2.1) hlife
  | runConnect he' => exact absurd he' hrun
  | connected he' | disconnected he' =>
    subst he'
    exact absurd he (by simp [isHandler])

/-- An attempt that succeeds connects the client. -/
theorem connectDone_connected (c : TcpClient) (error : Bool) :
    (c.connectDone error).connected = if error then c.connected else true := by
  cases error with
  | true => exact congrArg (·.2.2.2.1) (TcpClient.life_scheduleReconnect _)
  | false => rfl

/-- `handleDisconnect` disconnects the client. -/
theorem handleDisconnect_connected (c : TcpClient) : c.handleDisconnect.connected = false := by
  rw [TcpClient.handleDisconnect]
  split
  · rfl
  · simpa using ‹¬ c.connected = true›

/-- A packet does not touch the connection. -/
theorem processPacket_connected (c : TcpClient) (p : Packet) :
    (c.processPacket p).connected = c.connected := by
  rw [TcpClient.processPacket_eq]

/-! ## The reads -/

/-- How many reads are outstanding on a socket. -/
def readsOn (t : ClientSocket) (socket : ℕ) : ℕ :=
  t.reads.countP fun r => decide (r.socket = socket)

/-- A read that begins is one more on the socket. -/
theorem readsOn_beginRead (t : ClientSocket) {state : ReadState}
    (h : t.reader.reading = some state) :
    t.beginRead.readsOn t.socket = t.readsOn t.socket + 1 := by
  simp [readsOn, beginRead, h, List.countP_append]

/-- A read that completes is one less on its socket. -/
theorem readsOn_eraseIdx (t : ClientSocket) {i : ℕ} {r : Read} (hr : t.reads[i]? = some r)
    (socket : ℕ) :
    ({ t with reads := t.reads.eraseIdx i } : ClientSocket).readsOn socket +
      (if r.socket = socket then 1 else 0) = t.readsOn socket := by
  have h := countP_eraseIdx_add (fun r => decide (r.socket = socket)) hr
  simp only [decide_eq_true_eq] at h
  exact h

/-- Reads are begun on the sockets there have been. -/
def Numbered (t : ClientSocket) : Prop := ∀ r ∈ t.reads, r.socket ≤ t.socket

/-- No read is outstanding on a socket that is still to come. -/
theorem Numbered.readsOn_eq_zero (hI : t.Numbered) {socket : ℕ} (h : t.socket < socket) :
    t.readsOn socket = 0 := by
  refine List.countP_eq_zero.mpr fun r hr => ?_
  have hle := hI r hr
  simp only [decide_eq_true_eq]
  omega

/-- Reads that go, and a socket that moves on, keep the numbering. -/
theorem Numbered.mono (hI : t.Numbered) (hreads : ∀ r ∈ t'.reads, r ∈ t.reads)
    (hsocket : t.socket ≤ t'.socket) : t'.Numbered :=
  fun r hr => (hI r (hreads r hr)).trans hsocket

/-- Closing the socket keeps the reads where they are. -/
theorem Numbered.close (hI : t.Numbered) : t.close.Numbered := by
  refine hI.mono (fun r hr => by rwa [close_reads] at hr) ?_
  rw [close_socket]
  exact Nat.le_add_right _ _

/-- A new read is one of the present socket. -/
theorem Numbered.beginRead (hI : t.Numbered) : t.beginRead.Numbered := by
  intro r hr
  rcases List.mem_append.mp hr with hr | hr
  · exact hI r hr
  · obtain ⟨state, -, rfl⟩ := Option.map_eq_some_iff.mp (Option.mem_toList.mp hr)
    exact Nat.le_refl _

/-- Every step keeps the reads on the sockets there have been. -/
theorem Numbered.step (hI : t.Numbered) (h : ClientSocket.step host clientId t e = some t') :
    t'.Numbered := by
  have herase (i : ℕ) : ({ t with reads := t.reads.eraseIdx i } : ClientSocket).Numbered :=
    hI.mono (fun r hr => List.mem_of_mem_eraseIdx hr) (Nat.le_refl _)
  cases transition_of_step h with
  | client => exact hI
  | @runConnect padding c =>
    have hclose : (t.withClient host padding .runConnect c).close.Numbered := Numbered.close hI
    exact hclose
  | stop => exact Numbered.close hI
  | opened => exact hI.mono (fun r hr => hr) (Nat.le_succ _)
  | connectFailed => exact hI
  | connected => exact Numbered.beginRead hI
  | runSend => exact hI
  | @readDone i bs r =>
    simp only [onRead]
    split
    · exact Numbered.close (herase i)
    · exact Numbered.beginRead (herase i)
  | readFailed => exact herase _
  | readAborted => exact herase _
  | writeDone => exact hI
  | writeFailed => exact hI
  | writeAborted => exact hI

/-- The handler of a read begins the next one, unless the header has an invalid length. -/
theorem readerAfter_reading (host : Endian) (t : ClientSocket) (r : Read) (bs : List UInt8)
    (h : (t.readerAfter host r bs).closed = false) :
    ∃ state, (t.readerAfter host r bs).reading = some state := by
  rw [← Option.isSome_iff_exists]
  rw [readerAfter] at h ⊢
  cases hstate : r.state with
  | header =>
    rw [hstate] at h
    exact PacketReader.reading_of_onReadHeader h
  | payload => exact PacketReader.reading_onReadPayload _ _

/-! ## A connection is read -/

/-- While the client is connected, the socket is open and one read is outstanding on it. -/
def Readable (t : ClientSocket) : Prop :=
  t.client.connected = true → t.isOpen = true ∧ t.readsOn t.socket = 1

/-- The event keeps a connected client reading. While the client is connected, a read that completes
is one of its socket and not of a header with an invalid length, and no attempt to connect opens the
socket; and when a connection is made, its socket is open and no read is outstanding on it. -/
def keepsReading (host : Endian) (t : ClientSocket) : Event → Bool
  | .resolved false => !t.client.connected
  | .nextEndpoint => !t.client.connected
  | .connectDone false => t.isOpen && decide (t.readsOn t.socket = 0)
  | .readDone i bs => !t.client.connected || (t.reads[i]?).all fun r =>
      decide (r.socket = t.socket) && !(t.readerAfter host r bs).closed
  | _ => true

/-- A client that is not connected has nothing to read. -/
theorem readable_of_not_connected (h : t.client.connected = false) : t.Readable :=
  fun hconnected => absurd (h.symm.trans hconnected) (by simp)

/-- A connection that is made reads if its socket is open and has no read yet. -/
theorem readable_step_connected {t' : ClientSocket} {c : TcpClient} {opening : ℕ}
    (hc : c.connected = true)
    (ht' : { t with client := c, opening := opening }.connected = t') :
    t'.Readable ↔ keepsReading host t (.connectDone false) = true := by
  have hreads := readsOn_beginRead { t with
    client := c
    opening := opening
    made := if t.socket ∈ t.made then t.made else t.made ++ [t.socket]
    reader := t.reader.readHeader } rfl
  have hreadsOn : t'.readsOn t'.socket = t.readsOn t.socket + 1 := ht' ▸ hreads
  have hopen : t'.isOpen = t.isOpen := ht' ▸ rfl
  have hconnected : t'.client.connected = true := ht' ▸ hc
  rw [Readable, keepsReading, Bool.and_eq_true, decide_eq_true_eq, hreadsOn, hopen]
  constructor
  · intro hP
    obtain ⟨hisOpen, hone⟩ := hP hconnected
    exact ⟨hisOpen, by omega⟩
  · rintro ⟨hisOpen, hzero⟩ _
    exact ⟨hisOpen, by omega⟩

/-- A completion keeps the client reading if the event does. -/
theorem readable_step_readDone {i : ℕ} {bs : List UInt8} {r : Read} (hP : t.Readable)
    (hr : t.reads[i]? = some r) :
    ({ t with reads := t.reads.eraseIdx i }.onRead host r bs).Readable ↔
      keepsReading host t (.readDone i bs) = true := by
  have herase := t.readsOn_eraseIdx hr t.socket
  have hconnected : ({ t with reads := t.reads.eraseIdx i }.onRead host r bs).client.connected =
      t.client.connected := by
    rw [onRead_client]
    exact foldl_keeps processPacket_connected _ _
  rw [Readable, hconnected, keepsReading, hr]
  cases hconn : t.client.connected with
  | false => simp
  | true =>
    obtain ⟨hopen, hone⟩ := hP hconn
    simp only [Bool.not_true, Bool.false_or, Option.all_some, Bool.and_eq_true, Bool.not_eq_true',
      decide_eq_true_eq, forall_const]
    have hafter : ({ t with reads := t.reads.eraseIdx i } : ClientSocket).readerAfter host r bs =
        t.readerAfter host r bs := rfl
    cases hclosed : (t.readerAfter host r bs).closed with
    | true =>
      -- the socket is closed, and `connected_` stays
      refine iff_of_false (fun h => ?_) (by simp)
      have hnot : ({ t with reads := t.reads.eraseIdx i }.onRead host r bs).isOpen = false := by
        simp only [onRead, hafter, hclosed, if_true, close_isOpen]
      exact absurd (hnot.symm.trans h.1) (by simp)
    | false =>
      obtain ⟨state, hstate⟩ := t.readerAfter_reading host r bs hclosed
      have hparts : ({ t with reads := t.reads.eraseIdx i }.onRead host r bs).isOpen = true ∧
          ({ t with reads := t.reads.eraseIdx i }.onRead host r bs).socket = t.socket ∧
          ({ t with reads := t.reads.eraseIdx i }.onRead host r bs).readsOn t.socket =
            ({ t with reads := t.reads.eraseIdx i } : ClientSocket).readsOn t.socket + 1 := by
        simp only [onRead, hafter, hclosed, Bool.false_eq_true, if_false]
        exact ⟨hopen, rfl, readsOn_beginRead _ hstate⟩
      obtain ⟨hopen', hsocket, hreads⟩ := hparts
      rw [hsocket, hreads]
      constructor
      · rintro ⟨-, htwo⟩
        refine ⟨?_, rfl⟩
        by_contra hne
        rw [if_neg hne] at herase
        omega
      · rintro ⟨hs, -⟩
        rw [if_pos hs] at herase
        exact ⟨hopen', by omega⟩

/-- Every step but `stop` keeps the client reading if and only if the event does. -/
theorem readable_step (hI : t.Numbered) (hP : t.Readable)
    (he : ∀ padding, e ≠ .client .stop padding) (h : step host clientId t e = some t') :
    t'.Readable ↔ keepsReading host t e = true := by
  -- most steps leave the socket and its reads alone
  have hkeep (hconnected : t'.client.connected = t.client.connected)
      (hsame : (t'.isOpen, t'.socket, t'.reads) = (t.isOpen, t.socket, t.reads)) :
      t'.Readable := by
    simp only [Prod.mk.injEq] at hsame
    obtain ⟨hopen, hsocket, hreads⟩ := hsame
    rw [Readable, hconnected, hopen, hsocket, readsOn, hreads]
    exact hP
  cases transition_of_step h with
  | @client e padding c hh hne hc =>
    exact iff_of_true (hkeep (client_connected_step hc hh hne.1) rfl) rfl
  | @runConnect padding c hc =>
    refine iff_of_true (readable_of_not_connected ?_) rfl
    simp only [ClientSocket.runConnect, close_client]
    exact TcpClient.step_runConnect hc ▸ rfl
  | @stop padding => exact absurd rfl (he padding)
  | opened opening he =>
    have hiff : keepsReading host t e = true ↔ t.client.connected = false := by
      obtain rfl | rfl := he
      · simp [keepsReading]
      · simp [keepsReading]
    rw [hiff]
    refine ⟨fun hP' => ?_, fun hnot => readable_of_not_connected hnot⟩
    rw [← Bool.not_eq_true]
    intro hconnected
    -- no read has been begun on the new socket
    have hone : t.readsOn (t.socket + 1) = 1 := (hP' hconnected).2
    rw [hI.readsOn_eq_zero (Nat.lt_succ_self _)] at hone
    exact absurd hone (by simp)
  | connectFailed opening he hc =>
    obtain rfl := TcpClient.step_connectDone hc
    refine iff_of_true (hkeep (connectDone_connected _ true) rfl) ?_
    obtain rfl | rfl := he
    · rfl
    · rfl
  | connected hc =>
    obtain rfl := TcpClient.step_connectDone hc
    exact readable_step_connected rfl rfl
  | runSend => exact iff_of_true (hkeep rfl rfl) rfl
  | readDone _ hr => exact readable_step_readDone hP hr
  | readFailed =>
    exact iff_of_true (readable_of_not_connected (handleDisconnect_connected _)) rfl
  | @readAborted i r hr hsocket =>
    refine iff_of_true (fun hconnected => ?_) rfl
    have herase := t.readsOn_eraseIdx hr t.socket
    rw [if_neg hsocket] at herase
    obtain ⟨hopen, hone⟩ := hP hconnected
    exact ⟨hopen, herase.trans hone⟩
  | writeDone => exact iff_of_true (hkeep rfl rfl) rfl
  | writeFailed =>
    exact iff_of_true (readable_of_not_connected (handleDisconnect_connected _)) rfl
  | writeAborted => exact iff_of_true (hkeep rfl rfl) rfl

/-- **Connected means readable.** In a run without `stop`, in every state in which the client is
connected its socket is open and exactly one read is outstanding on it, exactly when every event
keeps a connected client reading: no header with an invalid length is read by a connected client, no
read of an earlier socket completes when the client is connected or leaves a read on the socket of a
new connection, and no attempt to connect opens the socket of a connected client. -/
theorem readable_iff (host : Endian) (clientId : List UInt8) (es : List Event) (u : ClientSocket)
    (hstop : ∀ padding, Event.client .stop padding ∉ es)
    (hrun : run (step host clientId) {} es = some u) :
    EveryState (step host clientId) {} es Readable ↔
      EveryStep (step host clientId) {} es fun t e => keepsReading host t e = true := by
  refine everyState_iff_everyStep (I := Numbered) (readable_of_not_connected rfl)
    (List.forall_mem_nil _) ?_ ?_ hrun
  · exact fun t e t' _ _ hI ht => hI.step ht
  · intro t e t' he _ hI hP ht
    exact readable_step hI hP (fun padding heq => hstop padding (heq ▸ he)) ht

/-- The client connects, and its `BIND` has been posted. -/
def connects : List Event :=
  [.client (.setAutoReconnect true) (0, 0), .client .start (0, 0), .client .runConnect (0, 0),
    .resolved false, .connectDone false, .client .drawBind (0, 0), .client .sendBind (0, 0)]

/-- A header arrives that announces this many bytes in all. -/
def readsHeader (length : UInt32) : Event :=
  .readDone 0 (PacketHeader.wire (0, 0) ⟨length, idBindResp, 0, 1⟩)

/-- A packet with one byte of payload is read. -/
theorem readable_iff_packet :
    EveryState (step .little [0x43]) {} (connects ++ [readsHeader 13, .readDone 0 [0x53]])
      Readable :=
  (readable_iff .little [0x43] (connects ++ [readsHeader 13, .readDone 0 [0x53]]) _
    (by simp [connects, readsHeader]) rfl).mpr (by decide)

/-- A header announces fewer bytes than it has itself. The socket is closed and no read is left, and
the client still is connected. -/
theorem invalid_length_stays_connected :
    ∃ u, run (step .little [0x43]) {} (connects ++ [readsHeader 0]) = some u ∧
      u.client.connected = true ∧ u.isOpen = false ∧ u.reads = [] ∧ ¬ Readable u := by
  refine ⟨_, rfl, by decide, by decide, by decide, fun h => ?_⟩
  exact absurd (h (by decide)).1 (by decide)

end ClientSocket

end TurboNet.Asio
