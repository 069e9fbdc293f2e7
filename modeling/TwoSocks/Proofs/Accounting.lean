/-
Where the transferred bytes are counted.

A byte is counted when the chunk or the datagram it came in has gone out completely.
TCP bytes go through a pending counter of their `copyloop` call and reach the process
totals at a flush, UDP bytes reach them directly.  `Account` reads off a thread's past
what was transferred, what was counted and what is still pending, and `Balanced` is the
law between the three.

The law holds between steps, a step being a whole `relay_data` call, a whole flush, or a
datagram together with its recording: inside one of them it does not.
-/
import TwoSocks.Proofs.InetText
import TwoSocks.Proofs.Operations
import TwoSocks.Proofs.UdpRules

namespace TwoSocks

open Server Prog

/-! ### One thread -/

/-- A chunk `relay_data` has read and is writing. -/
structure Chunk where
  direction : Direction
  length : Nat
  sent : Nat

/-- What a thread's past comes to. -/
structure Account where
  held : List (Fd × SockType)
  /-- The pending counters. -/
  pending : Direction → Nat
  /-- What was added to the process totals. -/
  recorded : Direction → Nat
  /-- The TCP chunks written completely, the UDP payloads accepted by `send`, and the
  payloads of the UDP replies written to the client. -/
  completed : Direction → Nat
  /-- All bytes the other side's socket has taken. -/
  written : Direction → Nat
  chunk : Option Chunk
  /-- The length of the datagram just received from a destination. -/
  reply : Option Nat

namespace Account

/-- A thread that has done nothing holds the client's socket. -/
def initial (client : Client) : Account :=
  ⟨[(client.fd, .stream)], fun _ => 0, fun _ => 0, fun _ => 0, fun _ => 0, none, none⟩

/-- Add `n` to one direction. -/
def count (f : Direction → Nat) (d : Direction) (n : Nat) : Direction → Nat :=
  Function.update f d (f d + n)

theorem count_apply (f : Direction → Nat) (d : Direction) (n : Nat) (d' : Direction) :
    count f d n d' = f d' + if d' = d then n else 0 := by
  unfold count
  by_cases h : d' = d
  · rw [h, Function.update_self, if_pos rfl]
  · rw [Function.update_of_ne h, if_neg h, Nat.add_zero]

/-- No chunk or reply is on its way. -/
def clear (g : Account) : Account := { g with chunk := none, reply := none }

/-- The direction of what is read from `fd`. -/
def directionFrom (client : Client) (fd : Fd) : Direction :=
  if fd = client.fd then .uploaded else .downloaded

/-- `m` more bytes of a chunk went out; the last ones complete it. -/
def writeChunk (g : Account) (c : Chunk) (m : Nat) : Account :=
  if c.sent + m < c.length then
    { g with
      written := count g.written c.direction m
      chunk := some { c with sent := c.sent + m } }
  else
    { g.clear with
      written := count g.written c.direction m
      completed := count g.completed c.direction c.length }

/-- A reply with a payload of `n` bytes was written, `m` bytes in all. -/
def writeReply (g : Account) (n m : Nat) : Account :=
  { g.clear with
    written := count g.written .downloaded m
    completed := count g.completed .downloaded n }

def next (client : Client) (g : Account) (o : Op) (r : o.Ret) : Account :=
  match o, r with
  | .read fd len, .ok buf =>
      if len = TCP_COPY_BUFFER_SIZE then
        { g with chunk := some ⟨directionFrom client fd, buf.length, 0⟩, reply := none }
      else g.clear
  | .recv _ _, .ok payload => { g with chunk := none, reply := some payload.length }
  | .write _ _, .ok m =>
      match g.chunk, g.reply with
      | some c, _ => g.writeChunk c m
      | none, some n => g.writeReply n m
      | none, none => g
  | .send _ _, .ok n =>
      { g.clear with
        written := count g.written .uploaded n
        completed := count g.completed .uploaded n }
  | .fetchAdd d n, _ => { g.clear with recorded := count g.recorded d n }
  | .storePending d n, _ => { g.clear with pending := Function.update g.pending d n }
  | .socket _ type, .ok fd => { g.clear with held := (fd, type) :: g.held }
  | .close fd, _ => { g.clear with held := g.held.filter fun h => h.1 ≠ fd }
  | _, _ => g.clear

/-- `n` bytes of a direction have been transferred and are in neither counter yet;
everything else is balanced. -/
def Owing (dir : Direction) (n : Nat) (g : Account) : Prop :=
  ∀ d, (g.recorded d + g.pending d + if d = dir then n else 0) = g.completed d ∧
    g.pending d < TCP_COPY_ACCOUNTING_FLUSH_BYTES ∧ g.completed d ≤ g.written d

/-- What was transferred is what was recorded and what is pending. -/
def Balanced (g : Account) : Prop :=
  ∀ d, g.recorded d + g.pending d = g.completed d ∧
    g.pending d < TCP_COPY_ACCOUNTING_FLUSH_BYTES ∧ g.completed d ≤ g.written d

end Account

open Account

/-- What a thread relies on and keeps to. -/
def accountSpec (client : Client) : Spec sys Account where
  rely g o r := match o, r with
    | .loadPending d, r => r = g.pending d
    | .socket _ _, .ok fd => ∀ t, (fd, t) ∉ g.held
    | .write fd buf, .ok n => n ≤ buf.length ∧ ((fd, SockType.dgram) ∈ g.held → n = buf.length)
    | _, _ => True
  guar _ _ := True
  next := Account.next client
  inv := Balanced

/-! ### The TCP relay -/

section Tcp

variable {client : Client} {g : Account}

/-- The spec inside an accounted block. -/
abbrev accounted (client : Client) : Spec sys Account := (accountSpec client).within .accounted

/-- Counting a chunk makes up for it. -/
theorem accountPending_balances {dir : Direction} {n : Nat} (h : g.Owing dir n) :
    wlp (accounted client) (accountPending dir n)
      (fun _ g' => g'.Balanced ∧ g'.held = g.held) g := by
  unfold accountPending
  simp only [bind_eq, wlp_bind, wlp_loadPending, wlp_storePending]
  refine ⟨.inl trivial, trivial, fun p hp => ⟨.inl trivial, .inl trivial, trivial, fun _ =>
    ⟨.inl trivial, .inl trivial, trivial, fun p' hp' => ⟨.inl trivial, ?_⟩⟩⟩⟩
  obtain rfl : p = g.pending dir := hp
  obtain rfl : p' = g.pending dir + n := hp'.trans (Function.update_self ..)
  split
  · refine (wlp_bind _).mpr (wlp_recordBytes _ _ (.inl trivial) (fun hn => ?_) trivial
      ⟨.inl trivial, ?_⟩)
    · rename_i hflush
      simp [hn, TCP_COPY_ACCOUNTING_FLUSH_BYTES] at hflush
    · refine (wlp_storePending _ _).mpr ⟨.inl trivial, trivial, fun _ => ⟨.inl trivial, ?_, rfl⟩⟩
      intro d
      obtain ⟨hsum, hlow, hle⟩ := h d
      simp only [accountSpec, Spec.within, Account.next, Account.clear, count_apply]
      by_cases hd : d = dir
      · subst hd
        simp only [Function.update_self, if_true] at hsum ⊢
        exact ⟨by omega, by decide, hle⟩
      · simp only [Function.update_of_ne hd, if_neg hd] at hsum ⊢
        exact ⟨by omega, hlow, hle⟩
  · rename_i hlow'
    refine ⟨.inl trivial, fun d => ?_, rfl⟩
    obtain ⟨hsum, hlow, hle⟩ := h d
    simp only [accountSpec, Spec.within, Account.next, Account.clear]
    by_cases hd : d = dir
    · subst hd
      simp only [Function.update_self, if_true] at hsum ⊢
      exact ⟨by omega, by omega, hle⟩
    · simp only [Function.update_of_ne hd, if_neg hd] at hsum ⊢
      exact ⟨by omega, hlow, hle⟩

/-- While a chunk is written: `sent` bytes of it are out, and nothing else has changed. -/
structure Writing (dir : Direction) (length sent : Nat) (g g' : Account) : Prop where
  held : g'.held = g.held
  pending : g'.pending = g.pending
  recorded : g'.recorded = g.recorded
  written : ∀ d, g'.written d = g.written d + if d = dir then sent else 0
  le : sent ≤ length
  midway : sent < length → g'.chunk = some ⟨dir, length, sent⟩ ∧ g'.completed = g.completed
  complete : sent = length → ∀ d, g'.completed d = g.completed d + if d = dir then length else 0

theorem Writing.step {dir : Direction} {length sent : Nat} {g' : Account}
    (h : Writing dir length sent g g') (hlt : sent < length) {m : Nat} (hm : m ≤ length - sent)
    (client : Client) (fd : Fd) (buf : Bytes) :
    Writing dir length (sent + m) g ((accountSpec client).next g' (.write fd buf) (.ok m)) := by
  obtain ⟨hchunk, hcompleted⟩ := h.midway hlt
  have hnext : (accountSpec client).next g' (.write fd buf) (.ok m)
      = g'.writeChunk ⟨dir, length, sent⟩ m := by
    simp [accountSpec, Account.next, hchunk]
  have hwritten : ∀ d,
      count g'.written dir m d = g.written d + if d = dir then sent + m else 0 := by
    intro d
    rw [count_apply, h.written]
    split <;> omega
  rw [hnext, writeChunk]
  by_cases hmore : sent + m < length
  · rw [if_pos hmore]
    exact ⟨h.held, h.pending, h.recorded, hwritten, by omega, fun _ => ⟨rfl, hcompleted⟩,
      fun he => absurd he (by omega)⟩
  · rw [if_neg hmore]
    refine ⟨h.held, h.pending, h.recorded, hwritten, by omega, fun hlt' => absurd hlt' hmore,
      fun _ d => ?_⟩
    show count g'.completed dir length d = _
    rw [count_apply, hcompleted]

theorem Writing.start (infd : Fd) (buf : Bytes) :
    Writing (directionFrom client infd) buf.length 0 g
      ((accountSpec client).next g (.read infd TCP_COPY_BUFFER_SIZE) (.ok buf)) := by
  have hnext : (accountSpec client).next g (.read infd TCP_COPY_BUFFER_SIZE) (.ok buf)
      = { g with chunk := some ⟨directionFrom client infd, buf.length, 0⟩, reply := none } := by
    simp [accountSpec, Account.next]
  rw [hnext]
  refine ⟨rfl, rfl, rfl, by simp, Nat.zero_le _, fun _ => ⟨rfl, rfl⟩, fun hempty d => ?_⟩
  simp [← hempty]

/-- A chunk that did not go out completely does not count. -/
theorem Writing.abandoned {dir : Direction} {length sent : Nat} {g' : Account}
    (hw : Writing dir length sent g g') (hlt : sent < length) (h : g.Balanced) : g'.Balanced := by
  intro d
  obtain ⟨hsum, hlow, hle⟩ := h d
  rw [hw.recorded, hw.pending, (hw.midway hlt).2, hw.written]
  exact ⟨hsum, hlow, by omega⟩

/-- A chunk that did owes its counting. -/
theorem Writing.owing {dir : Direction} {length : Nat} {g' : Account}
    (hw : Writing dir length length g g') (h : g.Balanced) : g'.Owing dir length := by
  intro d
  obtain ⟨hsum, hlow, hle⟩ := h d
  rw [hw.recorded, hw.pending, hw.complete rfl, hw.written]
  exact ⟨by omega, hlow, by omega⟩

/-- The write loop leaves a chunk to be counted, or none. -/
theorem writeAll_owing {dir : Direction} {g₁ : Account} (outfd : Fd) (buf : Bytes)
    (h : g.Balanced) (hw : Writing dir buf.length 0 g g₁) :
    wlp (accounted client) (writeAll outfd buf) (fun b g' => g'.held = g.held ∧
      if b then g'.Owing dir buf.length else g'.Balanced) g₁ := by
  refine wlp_iterate (fun sent g' => Writing dir buf.length sent g g') hw fun sent g' hw => ?_
  unfold writeRest
  split
  · rename_i hlt
    simp only [bind_eq, pure_eq, wlp_bind, wlp_write]
    refine ⟨.inl trivial, trivial, fun r hr => ⟨.inl trivial, ?_⟩⟩
    rcases r with e | m
    · exact ⟨.inl trivial, hw.held, hw.abandoned hlt h⟩
    · have hm : m ≤ buf.length - sent := by simpa using hr.1
      exact ⟨.inl trivial, hw.step hlt hm client outfd (buf.drop sent)⟩
  · have hall : sent = buf.length := by
      have := hw.le
      omega
    subst hall
    exact ⟨.inl trivial, hw.held, hw.owing h⟩

/-- `relay_data` keeps the balance, whatever comes of it. -/
theorem relayData_balanced (h : g.Balanced) (infd outfd : Fd) (countsAsUpload : Bool)
    (hdir : directionFrom client infd = if countsAsUpload then .uploaded else .downloaded) :
    wlp (accountSpec client) (relayData infd outfd TCP_COPY_BUFFER_SIZE countsAsUpload)
      (fun _ g' => g'.Balanced ∧ g'.held = g.held) g := by
  refine wlp_atomically h ?_
  unfold relayChunk
  simp only [bind_eq, pure_eq, wlp_bind, wlp_read]
  refine ⟨.inl trivial, trivial, fun r _ => ⟨.inl trivial, ?_⟩⟩
  rcases r with e | buf
  · exact ⟨.inl trivial, h, h, rfl⟩
  have hstart : Writing _ buf.length 0 g ((accounted client).next g
      (.read infd TCP_COPY_BUFFER_SIZE) (.ok buf)) := Writing.start infd buf
  dsimp only
  split
  · rename_i hempty
    subst hempty
    have hbalanced : Balanced _ := fun d => by simpa using hstart.owing h d
    exact ⟨.inl trivial, hbalanced, hbalanced, hstart.held⟩
  · refine (wlp_bind _).mpr (wlp_mono _ ?_ (writeAll_owing outfd buf h hstart))
    rintro (_ | _) g₁ ⟨hheld, h₁⟩
    · exact ⟨.inl trivial, h₁, h₁, hheld⟩
    · rw [hdir] at h₁
      have hcount : ∀ dir, g₁.Owing dir buf.length → wlp (accounted client)
          (do accountPending dir buf.length; return ConnectionState.opened)
          (fun _ g' => (accountSpec client).inv g' ∧ g'.Balanced ∧ g'.held = g.held) g₁ := by
        intro dir h₁
        refine (wlp_bind _).mpr (wlp_mono _ (fun _ g₂ h₂ => ?_) (accountPending_balances h₁))
        exact ⟨.inl trivial, h₂.1, h₂.1, h₂.2.trans hheld⟩
      cases countsAsUpload with
      | true => exact hcount .uploaded h₁
      | false => exact hcount .downloaded h₁

/-- A flush empties a counter into the total. -/
theorem flushPending_empties (h : g.Balanced) (dir : Direction) :
    wlp (accounted client) (flushPending dir) (fun _ g' => g'.Balanced ∧ g'.held = g.held ∧
      g'.pending = Function.update g.pending dir 0) g := by
  unfold flushPending
  simp only [bind_eq, wlp_bind, wlp_loadPending]
  refine ⟨.inl trivial, trivial, fun p hp => ⟨.inl trivial, ?_⟩⟩
  obtain rfl : p = g.pending dir := hp
  split
  · rename_i hsome
    refine (wlp_bind _).mpr (wlp_recordBytes _ _ (.inl trivial) (fun hn => absurd hn hsome) trivial
      ⟨.inl trivial, ?_⟩)
    refine (wlp_storePending _ _).mpr ⟨.inl trivial, trivial, fun _ => ⟨.inl trivial, ?_, rfl, rfl⟩⟩
    intro d
    obtain ⟨hsum, hlow, hle⟩ := h d
    simp only [accountSpec, Spec.within, Account.next, Account.clear, count_apply]
    by_cases hd : d = dir
    · subst hd
      simp only [Function.update_self, if_true]
      exact ⟨by omega, by decide, hle⟩
    · simp only [Function.update_of_ne hd, if_neg hd]
      exact ⟨hsum, hlow, hle⟩
  · rename_i hnone
    refine ⟨.inl trivial, h, rfl, funext fun d => ?_⟩
    by_cases hd : d = dir
    · subst hd
      rw [Function.update_self]
      exact not_not.mp hnone
    · exact (Function.update_of_ne hd ..).symm

theorem flushPendingTransferTotals_empties (h : g.Balanced) :
    wlp (accountSpec client) flushPendingTransferTotals (fun _ g' => g'.Balanced ∧
      g'.held = g.held ∧ ∀ d, g'.pending d = 0) g := by
  refine wlp_atomically h ((wlp_bind _).mpr (wlp_mono _ ?_ (flushPending_empties h .downloaded)))
  rintro _ g₁ ⟨h₁, hheld₁, hpending₁⟩
  refine wlp_mono _ ?_ (flushPending_empties h₁ .uploaded)
  rintro _ g₂ ⟨h₂, hheld₂, hpending₂⟩
  refine ⟨h₂, h₂, hheld₂.trans hheld₁, fun d => ?_⟩
  rw [hpending₂, hpending₁]
  cases d <;> rfl

/-- `copyloop` keeps the balance and leaves nothing pending. -/
theorem copyloop_balanced (h : g.Balanced) (hzero : ∀ d, g.pending d = 0) {remotefd : Fd}
    (hne : remotefd ≠ client.fd) :
    wlp (accountSpec client) (copyloop client.fd remotefd) (fun _ g' => g'.Balanced ∧
      g'.held = g.held ∧ ∀ d, g'.pending d = 0) g := by
  have hflush : ∀ {g' : Account} (state : ConnectionState), g'.Balanced → g'.held = g.held →
      wlp (accountSpec client) (flushAndReturn state) (Sum.elim
        (fun _ g'' => g''.Balanced ∧ g''.held = g.held)
        (fun _ g'' => g''.Balanced ∧ g''.held = g.held ∧ ∀ d, g''.pending d = 0)) g' := by
    intro g' state h' hheld
    refine (wlp_bind _).mpr (wlp_mono _ ?_ (flushPendingTransferTotals_empties h'))
    exact fun _ g'' ⟨h'', hheld'', hpending⟩ => ⟨h'', h'', hheld''.trans hheld, hpending⟩
  have hrelay : ∀ {g' : Account} (revents : UInt16) (infd outfd : Fd) (countsAsUpload : Bool),
      directionFrom client infd = (if countsAsUpload then .uploaded else .downloaded) →
      g'.Balanced → g'.held = g.held →
      wlp (accountSpec client) (relayIfReadable revents infd outfd countsAsUpload)
        (fun _ g'' => g''.Balanced ∧ g''.held = g.held) g' := by
    intro g' revents infd outfd up hdir h' hheld
    unfold relayIfReadable
    split
    · refine wlp_mono _ ?_ (relayData_balanced h' infd outfd up hdir)
      exact fun _ g'' ⟨h'', hheld''⟩ => ⟨h'', hheld''.trans hheld⟩
    · exact ⟨h', h', hheld⟩
  have hzeroed : ∀ d, Function.update (Function.update g.pending .downloaded 0) .uploaded 0 d
      = g.pending d := by
    intro d
    cases d <;> simp [hzero]
  unfold copyloop
  simp only [bind_eq, wlp_bind, wlp_storePending]
  have hstart : Balanced ((accountSpec client).next ((accountSpec client).next g
      (.storePending .downloaded 0) ()) (.storePending .uploaded 0) ()) := fun d => by
    simpa only [accountSpec, Account.next, Account.clear, hzeroed] using h d
  have hhalf : Balanced ((accountSpec client).next g (.storePending .downloaded 0) ()) :=
      fun d => by
    have hzeroed : Function.update g.pending .downloaded 0 d = g.pending d := by
      cases d <;> simp [hzero]
    simpa only [accountSpec, Account.next, Account.clear, hzeroed] using h d
  refine ⟨h, trivial, fun _ => ⟨hhalf, hhalf, trivial, fun _ => ⟨hstart, ?_⟩⟩⟩
  refine wlp_iterate (fun _ g' => g'.Balanced ∧ g'.held = g.held) ⟨hstart, rfl⟩
    fun _ g' ⟨h', hheld⟩ => ?_
  unfold copyloopBody
  simp only [bind_eq, wlp_bind, wlp_poll]
  refine ⟨h', trivial, fun r _ => ⟨h', ?_⟩⟩
  rcases r with _ | e | revents
  · exact hflush _ h' hheld
  · dsimp only
    split
    · exact ⟨h', h', hheld⟩
    · exact hflush _ h' hheld
  show wlp _ (copyloopReady ..) _ _
  unfold copyloopReady
  split
  · exact hflush _ h' hheld
  refine (wlp_bind _).mpr (wlp_mono _ ?_ (hrelay _ _ _ true (if_pos rfl) h' hheld))
  rintro result g₁ ⟨h₁, hheld₁⟩
  split
  · exact hflush _ h₁ hheld₁
  refine (wlp_bind _).mpr (wlp_mono _ ?_ (hrelay _ _ _ false (if_neg hne) h₁ hheld₁))
  rintro result' g₂ ⟨h₂, hheld₂⟩
  split
  · exact hflush _ h₂ hheld₂
  dsimp only
  split
  · exact hflush _ h₂ hheld₂
  · exact ⟨h₂, h₂, hheld₂⟩

end Tcp

/-! ### The UDP relay -/

/-- The association's socket is held, and no destination uses it. -/
structure Carries (udpFd : Fd) (s : UdpLoop) (g : Account) : Prop where
  balanced : g.Balanced
  held : (udpFd, SockType.dgram) ∈ g.held
  others : ∀ item ∈ s.sockList.items, item.fd ≠ udpFd

section Udp

variable {client : Client} {udpFd : Fd} {s : UdpLoop} {g : Account}

/-- Closing a descriptor leaves the others. -/
theorem mem_close {held : List (Fd × SockType)} {fd fd' : Fd} {t : SockType}
    (h : (fd, t) ∈ held) (hne : fd ≠ fd') : (fd, t) ∈ held.filter fun h => h.1 ≠ fd' :=
  List.mem_filter.mpr ⟨h, by simpa using hne⟩

theorem closeUdpDestination_carries (h : Carries udpFd s g) {idx : Nat}
    (hidx : idx < s.sockList.items.length) (state : ConnectionState) (ec : Errorcode) :
    wlp (accountSpec client) (closeUdpDestination s idx state ec) (Carries udpFd) g := by
  have hitem : s.sockList.itemFromIndex idx = s.sockList.items[idx] :=
    List.getD_eq_getElem _ _ hidx
  have hne : s.sockList.items[idx].fd ≠ udpFd := h.others _ (List.getElem_mem hidx)
  unfold closeUdpDestination emitAddrportConnectionEvent
  rw [hitem]
  simp only [bind_eq, pure_eq, wlp_bind, wlp_close, wlp_emitConnectionEvent]
  have hb := h.balanced
  exact ⟨hb, trivial, fun _ => ⟨hb, hb, trivial, fun _ => ⟨hb, hb, hb, mem_close h.held hne.symm,
    fun item hitem => h.others item (List.mem_of_mem_eraseIdx hitem)⟩⟩⟩

theorem failUdpDestination_carries (h : Carries udpFd s g) (addrport : Socks5Addrport)
    (ec : Errorcode) : wlp (accountSpec client) (failUdpDestination addrport ec)
      (fun _ g' => Carries udpFd s g') g := by
  have hb := h.balanced
  unfold failUdpDestination emitAddrportConnectionEvent
  simp only [bind_eq, wlp_bind, wlp_nextConnectionIdentifier, wlp_emitConnectionEvent]
  exact ⟨hb, trivial, fun _ _ => ⟨hb, hb, trivial, fun _ => ⟨hb, hb, h.held, h.others⟩⟩⟩

theorem openUdpDestination_carries (h : Carries udpFd s g) (addrport : Socks5Addrport) :
    wlp (accountSpec client) (openUdpDestination s addrport) (Tried (Carries udpFd)) g := by
  have hb := h.balanced
  have hfail : ∀ {g' : Account} (ec : Errorcode), Carries udpFd s g' → wlp (accountSpec client)
      (do failUdpDestination addrport ec; return (s, none)) (Tried (Carries udpFd)) g' :=
    fun ec h' => (wlp_bind _).mpr (wlp_mono _ (fun _ g' hg' => ⟨hg'.balanced, hg', nofun⟩)
      (failUdpDestination_carries h' addrport ec))
  unfold openUdpDestination resolveSocks5Addrport
  simp only [bind_eq, pure_eq, wlp_bind, wlp_getaddrinfo]
  refine ⟨hb, trivial, fun r _ => ⟨hb, ?_⟩⟩
  rcases r with _ | targetAddr
  · exact ⟨hb, hfail _ ⟨hb, h.held, h.others⟩⟩
  simp only [wlp_bind, wlp_ret, wlp_socket]
  refine ⟨hb, hb, trivial, fun r hr => ?_⟩
  rcases r with e | fd
  · exact ⟨hb, hfail _ ⟨hb, h.held, h.others⟩⟩
  have hne : udpFd ≠ fd := fun heq => hr _ (heq ▸ h.held)
  refine ⟨hb, ?_⟩
  have hheld : (udpFd, SockType.dgram) ∈ (fd, SockType.dgram) :: g.held :=
    List.mem_cons_of_mem _ h.held
  have hgiveUp : ∀ {g' : Account} (id : Int), g'.Balanced →
      g'.held = (fd, SockType.dgram) :: g.held → wlp (accountSpec client) (do
        close fd
        emitAddrportConnectionEvent id .udp .error addrport .generalFailure
        return (s, none)) (Tried (Carries udpFd)) g' := by
    intro g' id hb' hg'
    unfold emitAddrportConnectionEvent
    simp only [bind_eq, pure_eq, wlp_bind, wlp_close, wlp_emitConnectionEvent]
    refine ⟨hb', trivial, fun _ => ⟨hb', hb', trivial, fun _ =>
      ⟨hb', hb', ⟨hb', ?_, h.others⟩, nofun⟩⟩⟩
    exact mem_close (hg' ▸ hheld) hne
  have htrack : ∀ {sockList : Sblist FdSocks5addr} {g' : Account} (id : Int),
      sockList.items = s.sockList.items ++ [⟨fd, id, addrport⟩] → g'.Balanced →
      g'.held = (fd, SockType.dgram) :: g.held → wlp (accountSpec client) (do
        let s := s.track sockList fd
        emitAddrportConnectionEvent id .udp .opened addrport .success
        return (s, some (fd, s.sockList.getsize - 1))) (Tried (Carries udpFd)) g' := by
    intro sockList g' id hitems hb' hg'
    unfold emitAddrportConnectionEvent
    simp only [bind_eq, pure_eq, wlp_bind, wlp_emitConnectionEvent]
    refine ⟨hb', trivial, fun _ => ⟨hb', hb', ⟨hb', hg' ▸ hheld, fun item hitem => ?_⟩, ?_⟩⟩
    · rw [show (s.track sockList fd).sockList.items = sockList.items from rfl, hitems] at hitem
      rcases List.mem_append.mp hitem with hitem | hitem
      · exact h.others item hitem
      · rw [List.mem_singleton.mp hitem]
        exact hne.symm
    · rintro _ _ ⟨⟩
      show ∃ h : sockList.items.length - 1 < sockList.items.length, _
      exact ⟨by simp [hitems], by simp [UdpLoop.track, hitems, Sblist.getsize]⟩
  simp only [wlp_bind, wlp_connect]
  refine ⟨hb, trivial, fun r _ => ⟨hb, ?_⟩⟩
  rcases r with e | ⟨⟩
  · simp only [wlp_bind, wlp_close]
    refine ⟨hb, trivial, fun _ => ⟨hb, (wlp_bind _).mp (hfail _ ⟨hb, ?_, h.others⟩)⟩⟩
    exact mem_close hheld hne
  simp only [wlp_bind, wlp_nextConnectionIdentifier]
  refine ⟨hb, trivial, fun id _ => ⟨hb, ?_⟩⟩
  split
  · exact hgiveUp id hb rfl
  · refine (wlp_bind _).mpr (wlp_sblistAdd _ _ hb (fun _ => trivial) (fun _ _ => hb)
      (fun l' hl' => htrack id hl' hb rfl) (fun _ => hgiveUp id hb rfl)
      (fun _ l' hl' => htrack id hl' hb rfl))

/-- A datagram that is recorded as it goes out. -/
theorem Account.Balanced.transfer {g' : Account} (h : g.Balanced) {dir : Direction} {n m : Nat}
    (hm : n ≤ m) (hp : g'.pending = g.pending)
    (hr : ∀ d, g'.recorded d = count g.recorded dir n d)
    (hc : g'.completed = count g.completed dir n) (hw : g'.written = count g.written dir m) :
    g'.Balanced := by
  intro d
  obtain ⟨hsum, hlow, hle⟩ := h d
  rw [hp, hr, hc, hw, count_apply, count_apply, count_apply]
  refine ⟨by omega, hlow, ?_⟩
  split <;> omega

theorem sendRecorded_balanced (h : g.Balanced) (fd : Fd) (payload : Bytes) :
    wlp (accountSpec client) (sendRecorded fd payload)
      (fun _ g' => g'.Balanced ∧ g'.held = g.held) g := by
  refine wlp_atomically h ?_
  simp only [bind_eq, pure_eq, wlp_bind, wlp_send]
  refine ⟨.inl trivial, trivial, fun r _ => ⟨.inl trivial, ?_⟩⟩
  rcases r with e | n
  · exact ⟨.inl trivial, h, h, rfl⟩
  refine (wlp_bind _).mpr (wlp_recordBytes _ _ (.inl trivial) (fun hn => ?_) trivial
    ⟨.inl trivial, ?_⟩)
  · have hb : Balanced ((accounted client).next g (.send fd payload) (.ok n)) :=
      h.transfer (Nat.le_refl n) rfl (fun d => by rw [count_apply, hn]; split <;> rfl) rfl rfl
    exact ⟨.inl trivial, hb, hb, rfl⟩
  · have hb : Balanced ((accounted client).next
        ((accounted client).next g (.send fd payload) (.ok n))
        (.fetchAdd .uploaded n) ()) := h.transfer (Nat.le_refl n) rfl (fun _ => rfl) rfl rfl
    exact ⟨.inl trivial, hb, hb, rfl⟩

/-- A reply counts its payload, which is less than what is written. -/
theorem writeRecorded_balanced (h : g.Balanced) (hheld : (udpFd, SockType.dgram) ∈ g.held)
    (header payload : Bytes) (hchunk : g.chunk = none) (hreply : g.reply = some payload.length) :
    wlp (accountSpec client) (writeRecorded udpFd header payload)
      (fun _ g' => g'.Balanced ∧ g'.held = g.held) g := by
  refine wlp_atomically h ?_
  simp only [bind_eq, pure_eq, wlp_bind, wlp_write]
  refine ⟨.inl trivial, trivial, fun r hr => ⟨.inl trivial, ?_⟩⟩
  rcases r with e | m
  · exact ⟨.inl trivial, h, h, rfl⟩
  have hm : payload.length ≤ m := by
    rw [hr.2 hheld, List.length_append]
    omega
  have hnext : (accounted client).next g (.write udpFd (header ++ payload)) (.ok m)
      = g.writeReply payload.length m := by
    simp [accountSpec, Spec.within, Account.next, hchunk, hreply]
  rw [hnext]
  refine (wlp_bind _).mpr (wlp_recordBytes _ _ (.inl trivial) (fun hn => ?_) trivial
    ⟨.inl trivial, ?_⟩)
  · have hb : Balanced (g.writeReply payload.length m) := h.transfer hm rfl
      (fun d => by rw [count_apply, hn]; split <;> rfl) rfl rfl
    exact ⟨.inl trivial, hb, hb, rfl⟩
  · have hb : Balanced ((accounted client).next (g.writeReply payload.length m)
        (.fetchAdd .downloaded payload.length) ()) := h.transfer hm rfl (fun _ => rfl) rfl rfl
    exact ⟨.inl trivial, hb, hb, rfl⟩

/-- Every part of the loop keeps the balance. -/
theorem account_rules (inet : Inet) (udpFd : Fd) :
    UdpRules (accountSpec client) inet udpFd (Carries udpFd) where
  inv _ _ h := h.balanced
  abort _ _ _ := trivial
  polled _ _ _ h := ⟨h.balanced, h.held, h.others⟩
  pinned _ _ h := ⟨h.balanced, h.held, h.others⟩
  poll _ _ h := ⟨trivial, fun _ _ => ⟨h.balanced, h.held, h.others⟩⟩
  control s g h := by
    refine ⟨trivial, fun r _ => ?_⟩
    rcases r with e | buf <;> exact ⟨h.balanced, h.held, h.others⟩
  perror _ _ h := ⟨trivial, fun _ _ => ⟨h.balanced, h.held, h.others⟩⟩
  receive s g h := by
    refine ⟨trivial, fun r _ => ?_⟩
    rcases r with e | buf <;> exact ⟨h.balanced, h.held, h.others⟩
  receiveFrom _ _ h := ⟨trivial, fun _ _ => ⟨h.balanced, h.held, h.others⟩⟩
  pin _ _ _ h := ⟨trivial, fun _ _ => ⟨h.balanced, h.held, h.others⟩⟩
  closed _ _ _ ec h hidx _ := closeUdpDestination_carries h hidx .error ec
  opened _ _ addrport h := openUdpDestination_carries h addrport
  sent s g idx payload h hidx := by
    refine wlp_mono _ ?_ (sendRecorded_balanced h.balanced _ payload)
    exact fun _ g' ⟨hb, hheld⟩ => ⟨hb, hheld ▸ h.held, h.others⟩
  replied s g i idx header h hidx hfd hheader := by
    rw [wlp_recv]
    have hb := h.balanced
    refine ⟨hb, trivial, fun r _ => ?_⟩
    rcases r with e | payload
    · exact ⟨hb, hb, h.held, h.others⟩
    · have h' : Carries udpFd s ((accountSpec client).next g
          (.recv (s.fds i).fd (UDP_COPY_BUFFER_SIZE - header.length)) (.ok payload)) :=
        ⟨hb, h.held, h.others⟩
      refine ⟨hb, wlp_mono _ ?_ (writeRecorded_balanced h'.balanced h'.held header payload rfl rfl)⟩
      exact fun _ g' ⟨hb, hheld⟩ => ⟨hb, hheld ▸ h'.held, h'.others⟩

/-- What `UDP_LOOP_END` asks for. -/
def Op.closing : Op → Prop
  | .handler _ | .close _ => True
  | _ => False

/-- An association keeps the balance to its end. -/
theorem copyLoopUdp_balanced (h : g.Balanced) (hheld : (udpFd, SockType.dgram) ∈ g.held)
    (inet : Inet) (tcpFd : Fd) :
    wlp (accountSpec client) (copyLoopUdp inet tcpFd udpFd) (fun _ g' => g'.Balanced) g := by
  have hend : ∀ {g' : Account} (e : UdpEnd), g'.Balanced →
      wlp (accountSpec client) (udpLoopEnd e) (fun _ g'' => g''.Balanced) g' := by
    intro g' e h'
    refine wlp_of_uses (A := Op.closing) (fun _ h => h) (fun _ _ _ _ => trivial)
      (fun g o r h ho _ => ?_) (.bind (uses_forEach (fun _ => uses_perform trivial) _) fun _ =>
        uses_forEach (fun _ => uses_perform trivial) _) h'
    cases o <;> first | exact h | cases ho
  have hbound : wlp (accountSpec client) (udpIsBound udpFd)
      (fun _ g' => g'.Balanced ∧ g'.held = g.held) g := by
    unfold udpIsBound
    simp only [bind_eq, pure_eq, wlp_bind, wlp_getpeername]
    refine ⟨h, trivial, fun r _ => ⟨h, ?_⟩⟩
    rcases r with e | addr
    · dsimp only
      split
      · exact ⟨h, h, rfl⟩
      · exact wlp_abort.mpr ⟨h, trivial⟩
    · exact ⟨h, h, rfl⟩
  refine (wlp_bind _).mpr (wlp_mono _ ?_ hbound)
  rintro bound g₁ ⟨h₁, hheld₁⟩
  simp only [bind_eq, pure_eq, wlp_bind, wlp_malloc]
  refine ⟨h₁, trivial, fun buf _ => ⟨h₁, h₁, trivial, fun sockList _ => ⟨h₁, ?_⟩⟩⟩
  split
  · refine (wlp_bind _).mpr (wlp_mono _ ?_ ((account_rules inet udpFd).loop
      (s := initialUdpLoop tcpFd udpFd bound)
      ⟨h₁, hheld₁ ▸ hheld, by simp [initialUdpLoop, Sblist.new]⟩))
    exact fun e g₂ he => hend e he.1.balanced
  · exact ⟨h₁, h₁⟩

end Udp

/-! ### A thread -/

/-- Nothing is being transferred. -/
structure Idle (client : Client) (g : Account) : Prop where
  balanced : g.Balanced
  pending : ∀ d, g.pending d = 0
  chunk : g.chunk = none
  reply : g.reply = none
  held : (client.fd, SockType.stream) ∈ g.held

/-- What a request needs for its relay. -/
def Ready (client : Client) : Relay → Account → Prop
  | .none, g => g.Balanced
  | .tcp remotefd _ _, g => Idle client g ∧ remotefd ≠ client.fd
  | .udp fd, g => Idle client g ∧ (fd, SockType.dgram) ∈ g.held

section Thread

variable {client : Client} {g : Account}

theorem Idle.write (h : Idle client g) (fd : Fd) (buf : Bytes) (r : Except Errno Nat) :
    Idle client ((accountSpec client).next g (.write fd buf) r) := by
  rcases r with e | m
  · exact ⟨h.balanced, h.pending, rfl, rfl, h.held⟩
  · have hnext : (accountSpec client).next g (.write fd buf) (.ok m) = g := by
      simp [accountSpec, Account.next, h.chunk, h.reply]
    rw [hnext]
    exact h

theorem Idle.write_held (h : Idle client g) (fd : Fd) (buf : Bytes) (r : Except Errno Nat) :
    ((accountSpec client).next g (.write fd buf) r).held = g.held := by
  rcases r with e | m
  · rfl
  · simp [accountSpec, Account.next, h.chunk, h.reply]

theorem Idle.close (h : Idle client g) {fd : Fd} (hne : fd ≠ client.fd) :
    Idle client ((accountSpec client).next g (.close fd) ()) :=
  ⟨h.balanced, h.pending, rfl, rfl, mem_close h.held hne.symm⟩

/-- The handshake transfers nothing. -/
theorem wlp_handshake {α : Type} {p : Server α} (hp : Uses Op.handshake p)
    (h : Idle client g) : wlp (accountSpec client) p (fun _ g' => Idle client g') g := by
  refine wlp_of_uses (fun _ h => h.balanced) (fun _ _ _ _ => trivial) (fun g o r h ho _ => ?_) hp h
  cases o with
  | write fd buf => exact h.write fd buf r
  | realloc | rdlock | wrlock | unlock | loadAuthIps | storeAuthIps | loadState | storeState =>
      exact ⟨h.balanced, h.pending, rfl, rfl, h.held⟩
  | abort => exact nomatch r
  | _ => cases ho

/-- Neither does looking something up, which leaves the descriptors as well. -/
theorem wlp_lookup {α : Type} {p : Server α} (hp : Uses Op.lookup p) (h : Idle client g) :
    wlp (accountSpec client) p (fun _ g' => Idle client g' ∧ g'.held = g.held) g := by
  refine wlp_of_uses (J := fun g' => Idle client g' ∧ g'.held = g.held)
    (fun _ h => h.1.balanced) (fun _ _ _ _ => trivial) (fun g' o r h ho _ => ?_) hp ⟨h, rfl⟩
  cases o with
  | getaddrinfo | getsockname =>
      exact ⟨⟨h.1.balanced, h.1.pending, rfl, rfl, h.1.held⟩, h.2⟩
  | _ => cases ho

theorem connectSocksTarget_idle (h : Idle client g) (address : SockaddrUnion) :
    wlp (accountSpec client) (connectSocksTarget address)
      (fun r g' => Idle client g' ∧ ∀ fd, r = .ok fd → fd ≠ client.fd) g := by
  have hb := h.balanced
  unfold connectSocksTarget
  simp only [bind_eq, pure_eq, wlp_bind, wlp_socket]
  refine ⟨hb, trivial, fun r hr => ?_⟩
  rcases r with e | fd
  · exact ⟨hb, hb, ⟨hb, h.pending, rfl, rfl, h.held⟩, by simp⟩
  have hne : fd ≠ client.fd := fun heq => hr _ (heq ▸ h.held)
  have h₁ : Idle client ((accountSpec client).next g (.socket address.af .stream) (.ok fd)) :=
    ⟨hb, h.pending, rfl, rfl, List.mem_cons_of_mem _ h.held⟩
  simp only [wlp_bind, wlp_connect]
  refine ⟨hb, hb, trivial, fun r _ => ⟨hb, ?_⟩⟩
  have h₂ : Idle client ((accountSpec client).next ((accountSpec client).next g
      (.socket address.af .stream) (.ok fd)) (.connect fd address) r) :=
    ⟨hb, h.pending, rfl, rfl, h₁.held⟩
  rcases r with e | ⟨⟩
  · simp only [wlp_bind, wlp_close]
    exact ⟨hb, trivial, fun _ => ⟨hb, hb, h₂.close hne, by simp⟩⟩
  · refine ⟨hb, h₂, ?_⟩
    rintro _ ⟨⟩
    exact hne

theorem sendError_idle (h : Idle client g) (fd : Fd) (ec : Errorcode) :
    wlp (accountSpec client) (sendError fd ec) (fun _ g' => Idle client g') g := by
  unfold sendError
  simp only [bind_eq, pure_eq, wlp_bind, wlp_write, wlp_ret]
  exact ⟨h.balanced, trivial, fun r _ =>
    ⟨(h.write fd _ r).balanced, (h.write fd _ r).balanced, h.write fd _ r⟩⟩

theorem setupConnect_ready (h : Idle client g) (address : SockaddrUnion)
    (requestedAddr : Socks5Addrport) :
    wlp (accountSpec client) (setupConnect client address requestedAddr) (Ready client) g := by
  have hb := h.balanced
  unfold setupConnect emitAddrportConnectionEvent sendResponse
  simp only [bind_eq, pure_eq, wlp_bind, wlp_nextConnectionIdentifier]
  refine ⟨hb, trivial, fun id _ => ⟨hb, ?_⟩⟩
  have h₁ : Idle client ((accountSpec client).next g .nextConnectionIdentifier id) :=
    ⟨hb, h.pending, rfl, rfl, h.held⟩
  refine wlp_mono _ ?_ (connectSocksTarget_idle h₁ address)
  rintro (ec | remotefd) g₂ ⟨h₂, hne⟩
  · have hb₂ := h₂.balanced
    simp only [wlp_bind, wlp_emitConnectionEvent]
    have h₃ : Idle client ((accountSpec client).next g₂ (.handler
        ⟨id, .tcp, .error, requestedAddr.addr, requestedAddr.port, ec⟩) ()) :=
      ⟨hb₂, h₂.pending, rfl, rfl, h₂.held⟩
    refine ⟨hb₂, trivial, fun _ => ⟨hb₂, wlp_mono _ ?_ (sendError_idle h₃ client.fd ec)⟩⟩
    exact fun _ g₄ h₄ => ⟨h₄.balanced, h₄.balanced⟩
  have hb₂ := h₂.balanced
  have hgiveUp : ∀ {g' : Account}, g'.Balanced → wlp (accountSpec client) (do
      emitConnectionEvent
        ⟨id, .tcp, .error, requestedAddr.addr, requestedAddr.port, .generalFailure⟩
      close remotefd
      return Relay.none) (Ready client) g' :=
    fun hb' => ⟨hb', trivial, fun _ _ => ⟨hb', trivial, fun _ _ => ⟨hb', hb'⟩⟩⟩
  simp only [wlp_bind, wlp_getsockname]
  refine ⟨hb₂, trivial, fun r _ => ⟨hb₂, ?_⟩⟩
  have h₃ : Idle client ((accountSpec client).next g₂ (.getsockname remotefd) r) :=
    ⟨hb₂, h₂.pending, rfl, rfl, h₂.held⟩
  rcases r with e | localAddr
  · exact hgiveUp h₃.balanced
  simp only [wlp_bind, wlp_write]
  refine ⟨hb₂, trivial, fun r _ => ⟨(h₃.write _ _ r).balanced, ?_⟩⟩
  rcases r with e | n
  · exact hgiveUp (h₃.write _ _ (.error e)).balanced
  · exact ⟨(h₃.write _ _ (.ok n)).balanced, h₃.write _ _ (.ok n), hne remotefd rfl⟩

/-- The relay socket of an association, if there is one, is a datagram socket. -/
def Bound (client : Client) (r : Except Errorcode Fd) (g : Account) : Prop :=
  Idle client g ∧ ∀ fd, r = .ok fd → (fd, SockType.dgram) ∈ g.held

theorem udpSvcSetup_bound (h : Idle client g) (clientAddr : SockaddrUnion) :
    wlp (accountSpec client) (udpSvcSetup clientAddr) (Bound client) g := by
  have hb := h.balanced
  unfold udpSvcSetup
  simp only [bind_eq, pure_eq, wlp_bind, wlp_socket]
  refine ⟨hb, trivial, fun r hr => ?_⟩
  rcases r with e | fd
  · exact ⟨hb, hb, ⟨hb, h.pending, rfl, rfl, h.held⟩, by simp⟩
  have hne : fd ≠ client.fd := fun heq => hr _ (heq ▸ h.held)
  have hkept : (client.fd, SockType.stream) ∈ (fd, SockType.dgram) :: g.held :=
    List.mem_cons_of_mem _ h.held
  have hfail : ∀ {g' : Account} (ec : Errorcode), g'.Balanced → (∀ d, g'.pending d = 0) →
      g'.held = (fd, SockType.dgram) :: g.held → wlp (accountSpec client)
        (do close fd; return .error ec) (Bound client) g' := by
    intro g' ec hb' hp' hg'
    refine ⟨hb', trivial, fun _ _ => ⟨hb', ⟨hb', hp', rfl, rfl, ?_⟩, by simp⟩⟩
    exact mem_close (hg' ▸ hkept) hne.symm
  have hopen : ∀ {g' : Account}, g'.Balanced → (∀ d, g'.pending d = 0) → g'.chunk = none →
      g'.reply = none → g'.held = (fd, SockType.dgram) :: g.held → wlp (accountSpec client)
        (.ret (.ok fd)) (Bound client) g' := by
    intro g' hb' hp' hc' hr' hg'
    refine ⟨hb', ⟨hb', hp', hc', hr', hg' ▸ hkept⟩, ?_⟩
    rintro _ ⟨⟩
    exact hg' ▸ List.mem_cons_self
  refine ⟨hb, ?_⟩
  dsimp only
  split
  · simp only [wlp_bind, wlp_connect]
    refine ⟨hb, trivial, fun r _ => ⟨hb, ?_⟩⟩
    rcases r with e | ⟨⟩
    · exact hfail _ hb h.pending rfl
    · exact hopen hb h.pending rfl rfl rfl
  · simp only [wlp_bind, wlp_getaddrinfoPassive]
    refine ⟨hb, trivial, fun r _ => ⟨hb, ?_⟩⟩
    rcases r with _ | addr
    · exact hfail _ hb h.pending rfl
    simp only [wlp_bind, wlp_bindCall]
    refine ⟨hb, trivial, fun r _ => ⟨hb, ?_⟩⟩
    rcases r with e | ⟨⟩
    · exact hfail _ hb h.pending rfl
    · exact hopen hb h.pending rfl rfl rfl

theorem setupUdpAssociate_ready (h : Idle client g) (address : SockaddrUnion) :
    wlp (accountSpec client) (setupUdpAssociate client address) (Ready client) g := by
  have hrefuse : ∀ {g' : Account} (ec : Errorcode), Idle client g' → wlp (accountSpec client)
      (do sendError client.fd ec; return Relay.none) (Ready client) g' :=
    fun ec h' => (wlp_bind _).mpr (wlp_mono _ (fun _ _ h'' => ⟨h''.balanced, h''.balanced⟩)
      (sendError_idle h' client.fd ec))
  have hgiveUp : ∀ {g' : Account} (fd : Fd), g'.Balanced → wlp (accountSpec client)
      (do close fd; return Relay.none) (Ready client) g' :=
    fun fd hb' => ⟨hb', trivial, fun _ _ => ⟨hb', hb'⟩⟩
  refine (wlp_bind _).mpr (wlp_mono _ ?_ (udpSvcSetup_bound h address))
  rintro (ec | _ | fd) g₁ ⟨h₁, hfd⟩
  · exact hrefuse _ h₁
  · exact hrefuse _ h₁
  refine (wlp_bind _).mpr (wlp_mono _ ?_
    (wlp_lookup (populateUdpResponseAddr_uses (fd + 1) client.fd) h₁))
  rintro (_ | localAddr) g₂ ⟨h₂, hheld⟩
  · exact hgiveUp _ h₂.balanced
  unfold sendResponse
  refine (wlp_bind _).mpr ((wlp_write _ _).mpr ⟨h₂.balanced, trivial, fun r _ => ?_⟩)
  have h₃ := h₂.write client.fd (responseBytes .success localAddr) r
  have hheld₃ := (h₂.write_held client.fd (responseBytes .success localAddr) r).trans hheld
  refine ⟨h₃.balanced, ?_⟩
  rcases r with e | n
  · exact hgiveUp _ h₃.balanced
  · exact ⟨h₃.balanced, h₃, hheld₃ ▸ hfd (fd + 1) rfl⟩

theorem serveRequest_balanced (h : Idle client g) (inet : Inet) (buf : Bytes) :
    wlp (accountSpec client) (serveRequest inet client buf) (fun _ g' => g'.Balanced) g := by
  have hsetup : wlp (accountSpec client) (setupRequest inet client buf) (Ready client) g := by
    refine (wlp_bind _).mpr (wlp_mono _ ?_ (wlp_lookup (parseSocksRequestHeader_uses inet buf _) h))
    rintro (ec | ⟨_ | _, address, requestedAddr⟩) g₁ ⟨h₁, -⟩
    · exact ⟨h₁.balanced, h₁.balanced⟩
    · exact setupConnect_ready h₁ address requestedAddr
    · exact setupUdpAssociate_ready h₁ address
  refine (wlp_bind _).mpr (wlp_mono _ ?_ hsetup)
  rintro (_ | ⟨remotefd, id, requestedAddr⟩ | fd) g₁ h₁
  · exact ⟨h₁, h₁⟩
  · obtain ⟨h₁, hne⟩ := h₁
    have hb := h₁.balanced
    unfold runRelay emitAddrportConnectionEvent
    simp only [bind_eq, wlp_bind, wlp_emitConnectionEvent, wlp_close]
    refine ⟨hb, trivial, fun _ => ⟨hb, wlp_mono _ ?_ (copyloop_balanced hb h₁.pending hne)⟩⟩
    rintro finalState g₂ ⟨h₂, -⟩
    exact ⟨h₂, trivial, fun _ => ⟨h₂, h₂, trivial, fun _ => ⟨h₂, h₂⟩⟩⟩
  · refine (wlp_bind _).mpr (wlp_mono _ ?_ (copyLoopUdp_balanced h₁.1.balanced h₁.2 inet client.fd))
    exact fun _ g₂ h₂ => ⟨h₂, trivial, fun _ _ => ⟨h₂, h₂⟩⟩

/-- **The books of a thread are balanced between any two of its steps.** -/
theorem clientthread_balanced (inet : Inet) (cfg : Config) :
    wlp (accountSpec client) (clientthread inet cfg client) (fun _ _ => True)
      (.initial client) := by
  have hstart : Idle client (.initial client) :=
    ⟨fun _ => ⟨rfl, show 0 < TCP_COPY_ACCOUNTING_FLUSH_BYTES by decide, Nat.le_refl _⟩,
      fun _ => rfl, rfl, rfl, List.mem_singleton_self _⟩
  have hbody : ∀ {g : Account}, Idle client g → wlp (accountSpec client)
      (clientthreadBody inet cfg client ())
      (Sum.elim (fun _ g' => Idle client g') fun _ g' => g'.Balanced) g := by
    intro g h
    have hb := h.balanced
    unfold clientthreadBody
    simp only [bind_eq, pure_eq, wlp_bind, wlp_recv]
    refine ⟨hb, trivial, fun r _ => ?_⟩
    rcases r with e | buf
    · exact ⟨hb, hb, hb⟩
    refine ⟨hb, ?_⟩
    dsimp only
    split
    · exact ⟨hb, hb⟩
    simp only [wlp_bind, wlp_loadState]
    refine ⟨hb, trivial, fun s _ => ⟨hb, ?_⟩⟩
    have h₁ : Idle client ((accountSpec client).next ((accountSpec client).next g
        (.recv client.fd CLIENT_BUFFER_SIZE) (.ok buf)) .loadState s) :=
      ⟨hb, h.pending, rfl, rfl, h.held⟩
    have hend : ∀ (x : Unit ⊕ Unit) (g' : Account), Idle client g' →
        Sum.elim (fun _ g' => Idle client g') (fun _ g' => g'.Balanced) x g' := by
      rintro (_ | _) g' h'
      · exact h'
      · exact h'.balanced
    cases s with
    | ss1Connected =>
        exact wlp_mono _ hend (wlp_handshake (selectMethod_handshake cfg client buf) h₁)
    | ss2NeedAuth =>
        exact wlp_mono _ hend (wlp_handshake (authenticate_handshake cfg client buf) h₁)
    | ss3Authed =>
        refine (wlp_bind _).mpr (wlp_mono _ ?_ (serveRequest_balanced h₁ inet buf))
        exact fun _ g' h' => ⟨h', h'⟩
  unfold clientthread
  simp only [bind_eq, wlp_bind, wlp_storeState, wlp_close, wlp_storeDone]
  have hb := hstart.balanced
  refine ⟨hb, trivial, fun _ => ⟨hb, ?_⟩⟩
  refine wlp_iterate (fun _ g => Idle client g) hstart fun _ g h => ?_
  refine wlp_mono _ ?_ (hbody h)
  rintro (_ | _) g' h'
  · exact h'
  · exact ⟨h', trivial, fun _ => ⟨h', h', trivial, fun _ => ⟨h', trivial⟩⟩⟩

end Thread

/-! ### All threads -/

/-- A thread's memory is as its past says. -/
def Mirrors (m : ThreadMem) (g : Account) : Prop := m.pending = g.pending ∧ m.held = g.held

/-- The process totals are what the threads recorded, as far as it fits. -/
structure Tallied (w : Shared) (vs : List (Pool.View Client ThreadMem Account)) : Prop where
  mirrors : ∀ v ∈ vs, Mirrors v.2.1 v.2.2
  total : ∀ d, w.total d = (vs.map fun v => v.2.2.recorded d).sum % 2 ^ 64

section Tallied

variable {w w' : Shared} {vs vs' : List (Pool.View Client ThreadMem Account)} {i : Client}
  {m m' : ThreadMem} {g g' : Account}

theorem Tallied.perm (h : Tallied w vs) (hp : vs.Perm vs') : Tallied w vs' where
  mirrors v hv := h.mirrors v (hp.mem_iff.mpr hv)
  total d := by rw [h.total, (hp.map _).sum_eq]

/-- A thread moves on: the totals grow by what it records. -/
theorem Tallied.change (h : Tallied w ((i, m, g) :: vs)) (hm : Mirrors m' g')
    (ht : ∀ d, ∃ n, w'.total d = (w.total d + n) % 2 ^ 64 ∧ g'.recorded d = g.recorded d + n) :
    Tallied w' ((i, m', g') :: vs) where
  mirrors v hv := by
    rcases List.mem_cons.mp hv with rfl | hv
    · exact hm
    · exact h.mirrors v (List.mem_cons_of_mem _ hv)
  total d := by
    obtain ⟨n, hw, hg⟩ := ht d
    have hold := h.total d
    simp only [List.map_cons, List.sum_cons] at hold ⊢
    rw [hw, hg, hold]
    omega

end Tallied

/-- A write neither records nor opens anything. -/
theorem write_keeps (client : Client) (g : Account) (fd : Fd) (buf : Bytes) (r : Except Errno Nat) :
    ((accountSpec client).next g (.write fd buf) r).pending = g.pending ∧
      ((accountSpec client).next g (.write fd buf) r).held = g.held ∧
        ((accountSpec client).next g (.write fd buf) r).recorded = g.recorded := by
  rcases r with e | m
  · exact ⟨rfl, rfl, rfl⟩
  · obtain ⟨held, pending, recorded, completed, written, chunk, reply⟩ := g
    rcases chunk with _ | c
    · rcases reply with _ | n <;> exact ⟨rfl, rfl, rfl⟩
    · show (Account.writeChunk _ c m).pending = _ ∧ (Account.writeChunk _ c m).held = _ ∧
        (Account.writeChunk _ c m).recorded = _
      unfold writeChunk
      split <;> exact ⟨rfl, rfl, rfl⟩

/-- Every event a thread may perform keeps the tally. -/
theorem tallied_keeps (inet : Inet) (cfg : Config) :
    Pool.Keeps (machine documented) (accepted inet cfg) accountSpec Account.initial Tallied where
  start w vs i h := by
    refine Tallied.perm ?_
      (List.perm_append_singleton (i, ThreadMem.initial i, Account.initial i) vs).symm
    refine ⟨fun v hv => ?_, fun d => ?_⟩
    · rcases List.mem_cons.mp hv with rfl | hv
      · exact ⟨rfl, rfl⟩
      · exact h.mirrors v hv
    · rw [h.total, List.map_cons, List.sum_cons]
      show _ = (0 + _) % 2 ^ 64
      rw [Nat.zero_add]
  rely w pre post i m g o r _ h hcan := by
    obtain ⟨hpending, hheld⟩ := (h.perm List.perm_middle).mirrors _ List.mem_cons_self
    cases o with
    | loadPending d => exact hcan.trans (congrFun hpending d)
    | socket af type =>
        rcases r with e | fd
        · trivial
        · exact fun t ht => hcan t (hheld ▸ ht)
    | write fd buf =>
        rcases r with e | n
        · trivial
        · exact ⟨hcan.1, fun ht => hcan.2 (hheld ▸ ht)⟩
    | _ => trivial
  event w pre post i m g o r _ h hcan _ := by
    have h := h.perm List.perm_middle
    obtain ⟨hpending, hheld⟩ := h.mirrors _ List.mem_cons_self
    refine Tallied.perm ?_ List.perm_middle.symm
    have hmod : ∀ d, w.total d = (w.total d + 0) % 2 ^ 64 := by
      intro d
      rw [h.total d]
      omega
    have hquiet : ∀ {g' : Account}, Mirrors m g' → g'.recorded = g.recorded →
        Tallied w ((i, m, g') :: (pre ++ post)) :=
      fun hm hr => h.change hm fun d => ⟨0, hmod d, by rw [hr, Nat.add_zero]⟩
    cases o with
    | fetchAdd d n =>
        refine h.change ⟨hpending, hheld⟩ fun d' => ?_
        refine ⟨if d' = d then n else 0, ?_, count_apply ..⟩
        by_cases hd : d' = d
        · subst hd
          rw [if_pos rfl]
          exact Function.update_self ..
        · rw [if_neg hd]
          exact (Function.update_of_ne hd ..).trans (hmod d')
    | storePending d n =>
        refine h.change ⟨?_, hheld⟩ fun d' => ⟨0, hmod d', rfl⟩
        show Function.update m.pending d n = Function.update g.pending d n
        rw [hpending]
    | close fd =>
        refine h.change ⟨hpending, ?_⟩ fun d' => ⟨0, hmod d', rfl⟩
        show m.held.filter _ = g.held.filter _
        rw [hheld]
    | socket af type =>
        rcases r with e | fd
        · exact hquiet ⟨hpending, hheld⟩ rfl
        · refine h.change ⟨hpending, ?_⟩ fun d' => ⟨0, hmod d', rfl⟩
          show (fd, type) :: m.held = (fd, type) :: g.held
          rw [hheld]
    | write fd buf =>
        obtain ⟨hp, hh, hr⟩ := write_keeps i g fd buf r
        exact hquiet ⟨hpending.trans hp.symm, hheld.trans hh.symm⟩ hr
    | read fd len =>
        rcases r with e | buf
        · exact hquiet ⟨hpending, hheld⟩ rfl
        · by_cases hlen : len = TCP_COPY_BUFFER_SIZE
          · exact hquiet (by simpa [accountSpec, Account.next, hlen] using ⟨hpending, hheld⟩)
              (by simp [accountSpec, Account.next, hlen])
          · exact hquiet (by simpa [accountSpec, Account.next, hlen] using ⟨hpending, hheld⟩)
              (by simp [accountSpec, Account.next, hlen, Account.clear])
    | recv fd len => rcases r with e | buf <;> exact hquiet ⟨hpending, hheld⟩ rfl
    | send fd buf => rcases r with e | n <;> exact hquiet ⟨hpending, hheld⟩ rfl
    | handler | nextConnectionIdentifier | storeAuthIps =>
        exact h.change ⟨hpending, hheld⟩ fun d' => ⟨0, hmod d', rfl⟩
    | storeState | storeDone =>
        exact h.change ⟨hpending, hheld⟩ fun d' => ⟨0, hmod d', rfl⟩
    | abort => exact nomatch r
    | _ => exact hquiet ⟨hpending, hheld⟩ rfl

/-! ### What `copyloop` leaves behind -/

/-- The spec that watches the pending counters alone. -/
def pendingSpec : Spec sys (Direction → Nat) where
  rely g o r := match o, r with
    | .loadPending d, r => r = g d
    | _, _ => True
  guar _ _ := True
  next g o _ := match o with
    | .storePending d n => Function.update g d n
    | _ => g

theorem flushPendingTransferTotals_drains (g : Direction → Nat) :
    wlp pendingSpec flushPendingTransferTotals (fun _ g' => ∀ d, g' d = 0) g := by
  have hflush : ∀ (dir : Direction) (g : Direction → Nat), wlp (pendingSpec.within .accounted)
      (flushPending dir) (fun _ g' => g' = Function.update g dir 0) g := by
    intro dir g
    unfold flushPending
    simp only [bind_eq, wlp_bind, wlp_loadPending]
    refine ⟨.inl trivial, trivial, fun p hp => ⟨.inl trivial, ?_⟩⟩
    obtain rfl : p = g dir := hp
    split
    · exact (wlp_bind _).mpr (wlp_recordBytes _ _ (.inl trivial)
        (fun _ => ⟨.inl trivial, trivial, fun _ _ => ⟨.inl trivial, rfl⟩⟩) trivial
        ⟨.inl trivial, .inl trivial, trivial, fun _ _ => ⟨.inl trivial, rfl⟩⟩)
    · rename_i hnone
      exact ⟨.inl trivial, ((Function.update_eq_self_iff ..).mpr (not_not.mp hnone).symm).symm⟩
  refine wlp_atomically trivial ((wlp_bind _).mpr (wlp_mono _ ?_ (hflush .downloaded g)))
  rintro _ _ rfl
  refine wlp_mono _ ?_ (hflush .uploaded _)
  rintro _ _ rfl
  refine ⟨trivial, fun d => ?_⟩
  cases d <;> rfl

/-- Every way out of `copyloop` is behind a flush. -/
theorem copyloop_drains (fd1 fd2 : Fd) (g : Direction → Nat) :
    wlp pendingSpec (copyloop fd1 fd2) (fun _ g' => ∀ d, g' d = 0) g := by
  have hflush : ∀ {g : Direction → Nat} (state : ConnectionState),
      wlp pendingSpec (flushAndReturn state)
        (Sum.elim (fun _ _ => True) fun _ g' => ∀ d, g' d = 0) g :=
    fun state => (wlp_bind _).mpr (wlp_mono _ (fun _ _ h => ⟨trivial, h⟩)
      (flushPendingTransferTotals_drains _))
  have hrelay : ∀ {g : Direction → Nat} (revents : UInt16) (infd outfd : Fd) (up : Bool),
      wlp pendingSpec (relayIfReadable revents infd outfd up) (fun _ _ => True) g := by
    intro g revents infd outfd up
    unfold relayIfReadable
    split
    · exact wlp_of_uses (J := fun _ => True) (fun _ _ => trivial) (fun _ _ _ _ => trivial)
        (fun _ _ _ _ _ _ => trivial)
        (relayData_uses (A := Op.relaying) Op.counting.relaying (fun _ => trivial)
          (fun _ => trivial) _ _) trivial
    · exact ⟨trivial, trivial⟩
  unfold copyloop
  simp only [bind_eq, wlp_bind, wlp_storePending]
  refine ⟨trivial, trivial, fun _ => ⟨trivial, trivial, trivial, fun _ => ⟨trivial, ?_⟩⟩⟩
  refine wlp_iterate (fun _ _ => True) trivial fun _ g _ => ?_
  unfold copyloopBody
  simp only [bind_eq, wlp_bind, wlp_poll]
  refine ⟨trivial, trivial, fun r _ => ⟨trivial, ?_⟩⟩
  rcases r with _ | e | revents
  · exact hflush _
  · dsimp only
    split
    · exact ⟨trivial, trivial⟩
    · exact hflush _
  show wlp _ (copyloopReady ..) _ _
  unfold copyloopReady
  split
  · exact hflush _
  refine (wlp_bind _).mpr (wlp_mono _ (fun result g₁ _ => ?_) (hrelay _ _ _ _))
  split
  · exact hflush _
  refine (wlp_bind _).mpr (wlp_mono _ (fun result' g₂ _ => ?_) (hrelay _ _ _ _))
  split
  · exact hflush _
  dsimp only
  split
  · exact hflush _
  · exact ⟨trivial, trivial⟩

/-- The memory's counters are what the spec watches. -/
theorem performs_pending {contract : Contract} {w w' : Shared} {m m' : ThreadMem} {tr : Trace sys}
    (h : Pool.Performs (machine contract) w m tr w' m') :
    pendingSpec.Legal m.pending tr ∧ pendingSpec.run m.pending tr = m'.pending := by
  induction h with
  | nil => exact ⟨trivial, rfl⟩
  | @cons w w' m m' o r tr hcan _ ih =>
      have hstep : pendingSpec.rely m.pending o r ∧
          pendingSpec.next m.pending o r = ((machine contract).upd w m o r).2.pending := by
        cases o with
        | loadPending d => exact ⟨hcan, rfl⟩
        | socket af type => rcases r with e | fd <;> exact ⟨trivial, rfl⟩
        | abort => exact nomatch r
        | _ => exact ⟨trivial, rfl⟩
      refine ⟨⟨hstep.1, ?_⟩, ?_⟩
      · rw [hstep.2]
        exact ih.1
      · rw [Spec.run_cons, hstep.2]
        exact ih.2

/-! ### The process -/

/-- What a thread's past comes to. -/
def accountOf (t : Thread sys Client ThreadMem) : Account :=
  (accountSpec t.id).run (.initial t.id) t.trace

/-- What holds of the counters in every state of the process. -/
structure Conserved (c : Pool sys Client Shared ThreadMem) : Prop where
  /-- Totals and pending counters together are what was transferred. -/
  conserved : ∀ d, (c.threads.map fun t => (accountOf t).completed d).sum < 2 ^ 64 →
    c.world.total d + (c.threads.map fun t => t.mem.pending d).sum =
      (c.threads.map fun t => (accountOf t).completed d).sum
  /-- No pending counter is due for a flush. -/
  flushed : ∀ t ∈ c.threads, ∀ d, t.mem.pending d < TCP_COPY_ACCOUNTING_FLUSH_BYTES
  /-- A session counts no more than it has written. -/
  backed : ∀ t ∈ c.threads, ∀ d,
    (accountOf t).recorded d + t.mem.pending d ≤ (accountOf t).written d

/-- **No transferred byte is lost or counted twice**, and `copyloop` leaves nothing
pending, wherever it is called and however it ends. -/
theorem transfers_conserved {inet : Inet} {cfg : Config} {c : Pool sys Client Shared ThreadMem}
    (hc : Process documented inet cfg allWhole c) :
    Conserved c ∧ ∀ (fd1 fd2 : Fd) (w w' : Shared) (m m' : ThreadMem) (tr : Trace sys)
      (state : ConnectionState), Eval (copyloop fd1 fd2) tr state →
        Pool.Performs (machine documented) w m tr w' m' → ∀ d, m'.pending d = 0 := by
  obtain ⟨ht, hb⟩ := Pool.Reachable.invariant (tallied_keeps inet cfg) (Q := fun _ _ => True)
    ⟨nofun, fun _ => rfl⟩ (fun _ _ ht _ => absurd trivial ht)
    (fun i => clientthread_balanced inet cfg) hc
  have hpending : ∀ t ∈ c.threads, t.mem.pending = (accountOf t).pending :=
    fun t ht' => (ht.mirrors _ (List.mem_map.mpr ⟨t, ht', rfl⟩)).1
  have hbalanced : ∀ t ∈ c.threads, (accountOf t).Balanced := fun t ht' => (hb t ht').inv
  refine ⟨⟨fun d hfits => ?_, fun t ht' d => ?_, fun t ht' d => ?_⟩, ?_⟩
  · have hsum : (c.threads.map fun t => (accountOf t).recorded d).sum +
        (c.threads.map fun t => t.mem.pending d).sum =
          (c.threads.map fun t => (accountOf t).completed d).sum := by
      rw [← List.sum_map_add]
      refine congrArg List.sum (List.map_congr_left fun t ht' => ?_)
      rw [hpending t ht']
      exact (hbalanced t ht' d).1
    have hrecorded : (c.threads.map fun t => (accountOf t).recorded d).sum < 2 ^ 64 := by omega
    have htotal := ht.total d
    rw [List.map_map] at htotal
    rw [htotal.trans (Nat.mod_eq_of_lt hrecorded)]
    exact hsum
  · rw [hpending t ht']
    exact (hbalanced t ht' d).2.1
  · obtain ⟨hsum, -, hle⟩ := hbalanced t ht' d
    rw [hpending t ht', hsum]
    exact hle
  · intro fd1 fd2 w w' m m' tr state heval hperforms
    obtain ⟨hlegal, hrun⟩ := performs_pending hperforms
    rw [← hrun]
    exact ((wlp_eval heval (copyloop_drains fd1 fd2 m.pending)).elim hlegal).2

/-- A client connects to `webTarget` and sends it two bytes. -/
def uploadTrace : Trace sys :=
  [⟨.storeState .ss1Connected, ()⟩,
    ⟨.recv 4 1024, .ok [5, 1, 0]⟩, ⟨.loadState, .ss1Connected⟩, ⟨.storeState .ss3Authed, ()⟩,
    ⟨.write 4 [5, 0], .ok 2⟩,
    ⟨.recv 4 1024, .ok [5, 1, 0, 1, 192, 0, 2, 1, 0, 80]⟩, ⟨.loadState, .ss3Authed⟩,
    ⟨.getaddrinfo webTarget.addr 80 .stream, some (.v4 (hostAddress 1) 80)⟩,
    ⟨.nextConnectionIdentifier, (1 : Int)⟩,
    ⟨.socket .inet .stream, .ok 7⟩, ⟨.connect 7 (.v4 (hostAddress 1) 80), .ok ()⟩,
    ⟨.getsockname 7, .ok (.v4 (hostAddress 9) 50000)⟩,
    ⟨.write 4 [5, 0, 0, 1, 192, 0, 2, 9, 195, 80], .ok 10⟩,
    ⟨.handler ⟨1, .tcp, .opened, webTarget.addr, 80, .success⟩, ()⟩,
    ⟨.storePending .downloaded 0, ()⟩, ⟨.storePending .uploaded 0, ()⟩,
    ⟨.poll [(4, POLLIN), (7, POLLIN)] IDLE_TIMEOUT, .ready [POLLIN, 0]⟩,
    ⟨.read 4 TCP_COPY_BUFFER_SIZE, .ok [104, 105]⟩, ⟨.write 7 [104, 105], .ok 2⟩,
    ⟨.loadPending .uploaded, (0 : Nat)⟩, ⟨.storePending .uploaded 2, ()⟩,
    ⟨.loadPending .uploaded, (2 : Nat)⟩,
    ⟨.poll [(4, POLLIN), (7, POLLIN)] IDLE_TIMEOUT, .timeout⟩,
    ⟨.loadPending .downloaded, (0 : Nat)⟩, ⟨.loadPending .uploaded, (2 : Nat)⟩,
    ⟨.fetchAdd .uploaded 2, ()⟩, ⟨.storePending .uploaded 0, ()⟩,
    ⟨.handler ⟨1, .tcp, .closed, webTarget.addr, 80, .success⟩, ()⟩,
    ⟨.close 7, ()⟩, ⟨.close 4, ()⟩, ⟨.storeDone, ()⟩]

/-- Two bytes go out and are counted. -/
theorem transfers_conserved_upload : ∃ c : Pool sys Client Shared ThreadMem,
    Process documented Inet.plain ⟨none, none, false⟩ allWhole c ∧
      c.world.total .uploaded = 2 ∧ Conserved c := by
  have hc : Process documented Inet.plain ⟨none, none, false⟩ allWhole
      ⟨_, [⟨webClient, _, _, _⟩]⟩ :=
    Pool.Reachable.session webClient .init
      (eval_of_replay 60 uploadTrace rfl) (by
        repeat' first | apply Pool.Performs.nil | apply Pool.Performs.cons
        all_goals first | trivial | rfl | skip
        -- what is left are the new descriptor and the length of what was read
        · intro t
          cases t <;> decide
        · show 2 ≤ TCP_COPY_BUFFER_SIZE
          decide)
  exact ⟨_, hc, rfl, (transfers_conserved hc).1⟩

end TwoSocks
