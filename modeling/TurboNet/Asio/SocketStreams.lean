import TurboNet.Common.Pipe
import TurboNet.Asio.Decoding

/-!
# The streams of the two programs

Reference: `claude/asio_client.cpp`, `TcpClient::sendPacket`, `doWrite`, `readHeader`,
`readPayload`; `claude/asio_server.cpp`, the same functions of `Connection`.

What a step of `ClientSocket` or of `ServerSockets` does to the stream that this side writes and to
the one that it reads: `carries_step` and `SocketChange.carries` for the former, `Awaits` with its
lemmas and `SocketChange.awaits` for the latter.
-/

namespace TurboNet.Asio

open Common

/-! ## What the client still has to read -/

namespace ClientSocket

variable {host sender : Endian} {clientId : List UInt8} {t t' : ClientSocket} {e : Event}
  {packets : List Packet} {rest : List UInt8} {up : Pipe UInt8}

/-- The client has not been connected, or has these packets still to process and these bytes still
to read, or it does not read any more. -/
inductive Awaits (sender : Endian) (t : ClientSocket) (packets : List Packet)
    (rest : List UInt8) : Prop where
  | fresh (frames : List (List UInt8)) (hmade : t.made = []) (hreads : t.reads = [])
      (hheader : t.reader.readHeader.AtHeader) (hpayload : t.reader.currentPayload = [])
      (hprocessed : t.reader.processed = []) (hframes : Frames sender frames packets)
      (hrest : rest = frames.flatten)
  | reading (r : Read) (hmade : t.made ≠ []) (hreads : t.reads = [r])
      (hstate : t.reader.reading = some r.state) (hsize : t.reader.wanted = some r.size)
      (hawaits : t.reader.Awaits sender packets rest)
  | ended (hmade : t.made ≠ []) (hreads : t.reads = [])

/-- A client that has not been connected awaits nothing. -/
theorem awaits_start (sender : Endian) : Awaits sender {} [] [] :=
  .fresh [] rfl rfl ⟨rfl, rfl, rfl, rfl⟩ rfl rfl .nil rfl

/-- More frames from the server are more packets to process. -/
theorem Awaits.append (h : t.Awaits sender packets rest) {frames : List (List UInt8)}
    {new : List Packet} (hframes : Frames sender frames new) :
    t.Awaits sender (packets ++ new) (rest ++ frames.flatten) := by
  cases h with
  | fresh frames' hmade hreads hheader hpayload hprocessed hframes' hrest =>
    refine .fresh (frames' ++ frames) hmade hreads hheader hpayload hprocessed
      (hframes'.append_frames hframes) ?_
    rw [hrest, List.flatten_append]
  | reading r hmade hreads hstate hsize hawaits =>
    exact .reading r hmade hreads hstate hsize (hawaits.append hframes)
  | ended hmade hreads => exact .ended hmade hreads

/-- Nothing but the connection and the reads matters. -/
theorem Awaits.congr (h : t.Awaits sender packets rest) (hmade : t'.made = t.made)
    (hreads : t'.reads = t.reads) (hreader : t'.reader = t.reader) :
    t'.Awaits sender packets rest := by
  cases h with
  | fresh frames hmade' hreads' hheader hpayload hprocessed hframes hrest =>
    refine .fresh frames (hmade ▸ hmade') (hreads ▸ hreads') ?_ ?_ ?_ hframes hrest
    · rwa [hreader]
    · rwa [hreader]
    · rwa [hreader]
  | reading r hmade' hreads' hstate hsize hawaits =>
    refine .reading r (hmade ▸ hmade') (hreads ▸ hreads') ?_ ?_ ?_
    · rwa [hreader]
    · rwa [hreader]
    · rwa [hreader]
  | ended hmade' hreads' => exact .ended (hmade ▸ hmade') (hreads ▸ hreads')

/-- A read is over, and the next one has not been begun. -/
theorem Awaits.eraseIdx (h : t.Awaits sender packets rest) {i : ℕ} {r : Read}
    (hr : t.reads[i]? = some r) (hmade : t'.made = t.made)
    (hreads : t'.reads = t.reads.eraseIdx i) : t'.Awaits sender packets rest := by
  cases h with
  | fresh _ _ hnone => simp [hnone] at hr
  | reading r' hmade' hone =>
    rw [hone] at hr hreads
    obtain rfl : i = 0 := by
      obtain ⟨hlt, -⟩ := List.getElem?_eq_some_iff.mp hr
      simpa using hlt
    exact .ended (hmade ▸ hmade') hreads
  | ended _ hnone => simp [hnone] at hr

/-- Closing the socket does not touch the reader. -/
@[simp] theorem close_reader (t : ClientSocket) : t.close.reader = t.reader := by
  rw [close]
  split <;> rfl

/-- The handler posted by `connect` resets a reader that has not read anything. -/
theorem Awaits.runConnect (h : t.Awaits sender packets rest) (hmade : t.made = []) :
    t.runConnect.Awaits sender packets rest := by
  cases h with
  | fresh frames _ hreads hheader hpayload hprocessed hframes hrest =>
    refine .fresh frames ?_ ?_ ?_ ?_ ?_ hframes hrest
    · exact (close_made t).trans hmade
    · exact (close_reads t).trans hreads
    · obtain ⟨-, -, hbuffer, hclosed⟩ := hheader
      simp only [ClientSocket.runConnect, close_reader]
      exact ⟨rfl, rfl, hbuffer, hclosed⟩
    · simpa [ClientSocket.runConnect] using hpayload
    · simpa [ClientSocket.runConnect] using hprocessed
  | reading _ hne => exact absurd hmade hne
  | ended hne => exact absurd hmade hne

/-- A connection has been made, and the first read is begun. -/
theorem Awaits.connected (h : t.Awaits sender packets rest) (hmade : t.made = []) :
    t.connected.Awaits sender packets rest := by
  cases h with
  | fresh frames _ hreads hheader hpayload hprocessed hframes hrest =>
    have hread : t.reader.readHeader.wanted = some sizeofHeader := by
      simp [PacketReader.wanted, hheader.reading, hheader.headerBytesRead]
    refine .reading ⟨t.socket, .header, sizeofHeader⟩ ?_ ?_ rfl hread ?_
    · simp [ClientSocket.connected, beginRead, hmade]
    · simp only [ClientSocket.connected, beginRead, hreads, hheader.reading, hread]
      rfl
    · exact .header frames hheader (fun hne => absurd hpayload hne) hframes hrest
  | reading _ hne => exact absurd hmade hne
  | ended hne => exact absurd hmade hne

/-- Nothing but a read changes what there is to read, as long as the connection stands. -/
theorem Awaits.step (hI : t.Awaits sender packets rest)
    (h : ClientSocket.step host clientId t e = some t') (hread : ∀ i bs, e ≠ .readDone i bs)
    (hends : e = .connectDone false ∨ (∃ padding, e = .client .runConnect padding) → t.made = []) :
    t'.Awaits sender packets rest := by
  cases transition_of_step h with
  | client => exact hI.congr rfl rfl rfl
  | runConnect =>
    have hmade : t.made = [] := hends (Or.inr ⟨_, rfl⟩)
    exact Awaits.runConnect (hI.congr rfl rfl rfl) hmade
  | stop => exact hI.congr (close_made _) (close_reads _) (close_reader _)
  | opened => exact hI.congr rfl rfl rfl
  | connectFailed => exact hI.congr rfl rfl rfl
  | connected =>
    exact Awaits.connected (hI.congr rfl rfl rfl) (hends (Or.inl rfl))
  | runSend => exact hI.congr rfl rfl rfl
  | readDone => exact absurd rfl (hread _ _)
  | readFailed _ hr => exact hI.eraseIdx hr rfl rfl
  | readAborted hr => exact hI.eraseIdx hr rfl rfl
  | writeDone => exact hI.congr rfl rfl rfl
  | writeFailed => exact hI.congr rfl rfl rfl
  | writeAborted => exact hI.congr rfl rfl rfl

/-- The handler of a read goes on reading, unless the length is invalid. -/
theorem onRead_eq {r : Read} {bs : List UInt8} (h : (t.readerAfter host r bs).closed = false) :
    t.onRead host r bs = { t with
      reader := t.readerAfter host r bs
      client := (t.packetsAfter host r bs).foldl TcpClient.processPacket t.client }.beginRead := by
  simp only [ClientSocket.onRead, h]
  rfl

/-- A read completes with as many bytes as it has asked for. -/
theorem readDone_eq_some {i : ℕ} {bs : List UInt8}
    (h : step host clientId t (.readDone i bs) = some t') :
    t.client.handler = none ∧ ∃ r, t.reads[i]? = some r ∧ r.size = bs.length ∧
      t' = { t with reads := t.reads.eraseIdx i }.onRead host r bs := by
  obtain ⟨hhandler, h⟩ := onStrand_eq_some h
  obtain ⟨r, hr, rfl⟩ := Option.map_eq_some_iff.mp h
  obtain ⟨hr, hsize⟩ := Option.filter_eq_some_iff.mp hr
  exact ⟨hhandler, r, hr, of_decide_eq_true hsize, rfl⟩

/-- The client reads the bytes that come next. -/
theorem Awaits.onRead (host : Endian) (hI : t.Awaits sender packets rest)
    (hlegible : Legible (t.reader.processed ++ packets)) {i : ℕ} {bs : List UInt8} {r : Read}
    (hr : t.reads[i]? = some r) (hsize : r.size = bs.length) (hbs : bs <+: rest) :
    t.made ≠ [] ∧ ∃ new packets', (new = [] ∨ ∃ p, new = [p]) ∧ packets = new ++ packets' ∧
      t.packetsAfter host r bs = new ∧
      ({ t with reads := t.reads.eraseIdx i }.onRead host r bs).reader.processed =
        t.reader.processed ++ new ∧
      ({ t with reads := t.reads.eraseIdx i }.onRead host r bs).Awaits sender packets'
        (rest.drop bs.length) := by
  cases hI with
  | fresh _ _ hnone => simp [hnone] at hr
  | ended _ hnone => simp [hnone] at hr
  | reading r' hmade hone hstate hwanted hawaits =>
    obtain ⟨rfl, rfl⟩ : i = 0 ∧ r' = r := by
      rw [hone] at hr
      obtain ⟨hlt, heq⟩ := List.getElem?_eq_some_iff.mp hr
      obtain rfl : i = 0 := by simpa using hlt
      exact ⟨rfl, heq⟩
    have hclosed : t.reader.closed = false := hawaits.closed (by rw [hstate]; rfl)
    have hafter : t.readerAfter host r' bs = t.reader.onRead host bs := by
      simp only [readerAfter, PacketReader.onRead, hstate, hclosed]
      cases r'.state <;> rfl
    obtain ⟨new, hreads⟩ := hawaits.onRead host hlegible (hsize ▸ hwanted) hbs
    obtain ⟨packets', hpackets, hawaits'⟩ := hreads.awaits
    obtain ⟨state, hstate'⟩ := Option.isSome_iff_exists.mp hreads.reading
    -- what matters of the client after the read, where the reader has begun the next one
    have hparts : ({ t with reads := t.reads.eraseIdx 0 }.onRead host r' bs).reader =
          t.reader.onRead host bs ∧
        ({ t with reads := t.reads.eraseIdx 0 }.onRead host r' bs).reads =
          [⟨t.socket, state, (t.reader.onRead host bs).wanted.getD 0⟩] ∧
        ({ t with reads := t.reads.eraseIdx 0 }.onRead host r' bs).made = t.made := by
      have hafter' : ({ t with reads := t.reads.eraseIdx 0 } : ClientSocket).readerAfter host r'
          bs = t.reader.onRead host bs := hafter
      rw [onRead_eq (hafter' ▸ hreads.closed), hafter']
      refine ⟨rfl, ?_, rfl⟩
      simp [beginRead, hone, hstate']
    generalize { t with reads := t.reads.eraseIdx 0 }.onRead host r' bs = u at hparts ⊢
    obtain ⟨hreader, hread, hmade'⟩ := hparts
    refine ⟨hmade, new, packets', hreads.one, hpackets, ?_, ?_, ?_⟩
    · rw [packetsAfter, hafter, hreads.processed, List.drop_left]
    · rw [hreader, hreads.processed]
    · refine .reading _ (hmade' ▸ hmade) hread ?_ ?_ ?_
      · rw [hreader, hstate']
      · rw [hreader, PacketReader.wanted, hstate']
        cases state <;> rfl
      · rwa [hreader]

/-! ## What the client has sent -/

/-- What the client sends is appended to what the pipe has still to carry. -/
theorem carries_withClient (hc : Pipe.Carries Send.bytes t.output t.posts up rest)
    (padding : Padding) (e : TcpClient.Event) (c : TcpClient) :
    Pipe.Carries Send.bytes t.output (t.withClient host padding e c).posts up
      (rest ++
        ((c.sent.drop t.client.sent.length).map fun p => p.serialize host padding).flatten) := by
  have hpost := hc.post ((c.sent.drop t.client.sent.length).map (t.accepted host padding e))
  rw [List.flatMap_def, List.map_map] at hpost
  exact hpost

/-- What a step hands to `sendPacket` comes last in the stream. -/
theorem carries_step (hc : Pipe.Carries Send.bytes t.output t.posts up rest)
    (h : step host clientId t e = some t') (hdone : ∀ i, e = .writeDone i → up.left = []) :
    ∃ frames, Frames host frames (t'.client.sent.drop t.client.sent.length) ∧
      Pipe.Carries Send.bytes t'.output t'.posts (up.write Send.bytes t.output t'.output)
        (rest ++ frames.flatten) := by
  -- the handlers on the strand send nothing new
  have hquiet (hsent : t'.client.sent = t.client.sent)
      (hc' : Pipe.Carries Send.bytes t'.output t'.posts (up.write Send.bytes t.output t'.output)
        rest) : ∃ frames, Frames host frames (t'.client.sent.drop t.client.sent.length) ∧
      Pipe.Carries Send.bytes t'.output t'.posts (up.write Send.bytes t.output t'.output)
        (rest ++ frames.flatten) := by
    refine ⟨[], ?_, ?_⟩
    · rw [hsent, List.drop_length]
      exact .nil
    · rwa [List.flatten_nil, List.append_nil]
  have hsame (hsent : t'.client.sent = t.client.sent) (houtput : t'.output = t.output)
      (hposts : t'.posts = t.posts) : ∃ frames,
      Frames host frames (t'.client.sent.drop t.client.sent.length) ∧
      Pipe.Carries Send.bytes t'.output t'.posts (up.write Send.bytes t.output t'.output)
        (rest ++ frames.flatten) := by
    refine hquiet hsent ?_
    rw [houtput, hposts, Pipe.write_of_begun rfl]
    exact hc
  -- what the client has accepted is posted
  have hposted (padding : Padding) (e : TcpClient.Event) (c : TcpClient)
      (hclient : t'.client = c) (houtput : t'.output = t.output)
      (hposts : t'.posts = (t.withClient host padding e c).posts) : ∃ frames,
      Frames host frames (t'.client.sent.drop t.client.sent.length) ∧
      Pipe.Carries Send.bytes t'.output t'.posts (up.write Send.bytes t.output t'.output)
        (rest ++ frames.flatten) := by
    rw [houtput, hposts, hclient, Pipe.write_of_begun rfl]
    exact ⟨_, frames_serialize host padding _, carries_withClient hc padding e c⟩
  cases transition_of_step h with
  | client => exact hposted _ _ _ rfl rfl rfl
  | runConnect =>
    exact hposted _ .runConnect _ (close_client _) (close_output _) (close_posts _)
  | stop => exact hposted _ .stop _ (close_client _) (close_output _) (close_posts _)
  | opened => exact hsame rfl rfl rfl
  | connectFailed _ _ hstep =>
    obtain rfl := TcpClient.step_connectDone hstep
    exact hsame (connectDone_sent _ true) rfl rfl
  | connected hstep =>
    obtain rfl := TcpClient.step_connectDone hstep
    exact hsame (connectDone_sent _ false) rfl rfl
  | runSend hposts =>
    rw [hposts] at hc
    exact hquiet rfl (hc.push _)
  | @readDone i bs r =>
    have hsent : ({ t with reads := t.reads.eraseIdx i }.onRead host r bs).client.sent =
        t.client.sent := by
      rw [onRead_client]
      exact foldl_keeps processPacket_sent _ _
    refine hsame hsent ?_ ?_
    · simp only [onRead]
      split
      · exact close_output _
      · rfl
    · simp only [onRead]
      split
      · exact close_posts _
      · rfl
  | readFailed => exact hsame (handleDisconnect_sent _) rfl rfl
  | readAborted => exact hsame rfl rfl rfl
  | writeDone houtput => exact hquiet rfl (hc.complete houtput (hdone _ rfl))
  | writeFailed _ houtput => exact hquiet (handleDisconnect_sent _) (hc.fail houtput)
  | writeAborted _ _ houtput => exact hquiet rfl (hc.fail houtput)

/-- Only a read processes packets. -/
theorem processed_step (h : step host clientId t e = some t')
    (hread : ∀ i bs, e ≠ .readDone i bs) : t'.reader.processed = t.reader.processed := by
  cases transition_of_step h with
  | runConnect => simp [ClientSocket.runConnect, withClient]
  | stop => simp [withClient]
  | readDone => exact absurd rfl (hread _ _)
  | _ => rfl

/-- Connections stay made. -/
theorem made_step (h : step host clientId t e = some t') : t.made <+: t'.made := by
  cases outputChange_of_step h with
  | connected _ _ _ hmade =>
    rw [hmade]
    split
    · exact List.prefix_rfl
    · exact List.prefix_append _ _
  | other _ _ _ hmade | push _ _ _ _ _ hmade | complete _ _ _ _ hmade | fail _ _ _ _ hmade
    | abort _ _ _ _ _ _ _ hmade => exact hmade ▸ List.prefix_rfl

/-- A connection is made by nothing but an attempt that succeeds. -/
theorem made_step_of_ne (h : step host clientId t e = some t') (he : e ≠ .connectDone false) :
    t'.made = t.made := by
  cases outputChange_of_step h with
  | connected he' => exact absurd he' he
  | other _ _ _ hmade | push _ _ _ _ _ hmade | complete _ _ _ _ hmade | fail _ _ _ _ hmade
    | abort _ _ _ _ _ _ _ hmade => exact hmade

end ClientSocket

/-! ## What a connection of the server has sent and read -/

namespace ServerSockets

variable {host sender : Endian} {serverId : List UInt8} {t t' : ServerSockets} {e : Event} {j : ℕ}
  {new : List (List UInt8)} {io io' : ConnectionSocket} {packets : List Packet}
  {rest : List UInt8} {down : Pipe UInt8}

/-- What the server posts for a connection is appended to what its pipe has still to carry. -/
theorem SocketChange.carries (h : SocketChange host e j new io io')
    (hc : Pipe.Carries id io.output (io.posts.filterMap Post.frame) down rest)
    (hdone : ∀ i, e = .writeDone j i → down.left = []) :
    Pipe.Carries id io'.output (io'.posts.filterMap Post.frame) (down.write id io.output io'.output)
      (rest ++ new.flatten) := by
  -- frames that are posted come last, and nothing else is written in such a step
  have hpost {posts : List Post} (hposts : posts.filterMap Post.frame = new) :
      Pipe.Carries id io.output ((io.posts ++ posts).filterMap Post.frame)
        (down.write id io.output io.output) (rest ++ new.flatten) := by
    rw [Pipe.write_of_begun rfl, List.filterMap_append, hposts, ← List.flatMap_id]
    exact hc.post new
  cases h with
  | post posts hposts => exact hpost hposts
  | runPost post rest' he hnew hposts =>
    rw [hnew, List.flatten_nil, List.append_nil]
    rw [hposts] at hc
    cases post with
    | send bytes => exact hc.push ()
    | close => exact (Pipe.write_of_begun (p := down) rfl).symm ▸ hc
  | readDone bs padding posts he hwanted hposts =>
    have hclose : (if (io.readerAfter host bs).closed then [Post.close] else []).filterMap
        Post.frame = [] := by
      split <;> rfl
    simp only [ConnectionSocket.post, ConnectionSocket.onRead, List.append_assoc]
    refine hpost ?_
    rw [List.filterMap_append, hclose, List.nil_append, hposts]
  | endRead he hnew =>
    rw [hnew, List.flatten_nil, List.append_nil]
    exact (Pipe.write_of_begun (p := down) rfl).symm ▸ hc
  | complete i output he hnew houtput =>
    rw [hnew, List.flatten_nil, List.append_nil]
    exact hc.complete houtput (hdone i he)
  | fail i output he hnew houtput =>
    rw [hnew, List.flatten_nil, List.append_nil]
    exact hc.fail houtput

/-- Nothing but a read changes what there is to read. -/
theorem SocketChange.awaits (h : SocketChange host e j new io io')
    (hI : io.reader.Awaits sender packets rest) (hread : ∀ bs padding, e ≠ .readDone j bs padding) :
    io'.reader.Awaits sender packets rest ∧ io'.reader.processed = io.reader.processed := by
  cases h with
  | runPost post =>
    cases post with
    | send bytes => exact ⟨hI, rfl⟩
    | close => exact ⟨hI, rfl⟩
  | readDone bs padding posts he => exact absurd he (hread bs padding)
  | endRead => exact ⟨.ended rfl, rfl⟩
  | post | complete | fail => exact ⟨hI, rfl⟩

/-- The connection reads the bytes that come next. -/
theorem reads_of_readDone (host : Endian) (hI : io.reader.Awaits sender packets rest)
    (hlegible : Legible (io.reader.processed ++ packets)) {bs : List UInt8}
    (hwanted : io.reader.wanted = some bs.length) (hbs : bs <+: rest) :
    ∃ new packets', (new = [] ∨ ∃ p, new = [p]) ∧ packets = new ++ packets' ∧
      io.packetsAfter host bs = new ∧
      (io.readerAfter host bs).processed = io.reader.processed ++ new ∧
      (io.readerAfter host bs).Awaits sender packets' (rest.drop bs.length) := by
  have hreading : io.reader.reading.isSome = true := by
    cases hnone : io.reader.reading with
    | none => simp [PacketReader.wanted, hnone] at hwanted
    | some state => rfl
  have hafter : io.readerAfter host bs = io.reader.onRead host bs := by
    rw [ConnectionSocket.readerAfter, ← hI.closed hreading]
  obtain ⟨new, hreads⟩ := hI.onRead host hlegible hwanted hbs
  obtain ⟨packets', hpackets, hawaits⟩ := hreads.awaits
  refine ⟨new, packets', hreads.one, hpackets, ?_, ?_, ?_⟩
  · rw [ConnectionSocket.packetsAfter, hafter, hreads.processed, List.drop_left]
  · rw [hafter, hreads.processed]
  · rwa [hafter]

/-- The socket of the connection that has read. -/
theorem readDone_eq_some {bs : List UInt8} {padding : Padding}
    (h : step host serverId t (.readDone j bs padding) = some t') (hio : t.sockets[j]? = some io)
    (hio' : t'.sockets[j]? = some io') :
    io.reader.wanted = some bs.length ∧ io'.reader = io.readerAfter host bs := by
  cases transition_of_step h with
  | @readDone _ _ _ _ b server _ hb hwanted =>
    obtain rfl := Option.some.inj (hb.symm.trans hio)
    have hset : (t.setSocket j (b.onRead host bs)).sockets[j]? = some (b.onRead host bs) :=
      List.getElem?_set_self (List.getElem?_eq_some_iff.mp hio).1
    obtain rfl := Option.some.inj ((getElem?_withServer hset).symm.trans hio')
    exact ⟨hwanted, rfl⟩

/-- The frames that a step posts for a connection are those of the packets that it sends. -/
theorem frames_newFrames (padding : Padding) (server server' : TcpServer) (j : ℕ) :
    Frames host (newFrames host padding server server' j)
      (((sentOf server' j).map Outgoing.packet).drop
        ((sentOf server j).map Outgoing.packet).length) := by
  have h := frames_serialize host padding
    (((sentOf server' j).drop (sentOf server j).length).map Outgoing.packet)
  rw [List.map_map] at h
  rw [List.length_map, ← List.map_drop]
  exact h

end ServerSockets

end TurboNet.Asio
