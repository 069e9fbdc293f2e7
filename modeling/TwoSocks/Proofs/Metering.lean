/-
What the app knows of what was really transferred.

Three counters stand between a byte and the number on the screen.  A TCP session counts it in a
counter of its own, the process adds that to its totals once there is enough of it, and a view
model adds what the totals grew by since its last poll to what it holds back, and that to what it
shows.  A poll reads the two totals one after the other, and the sessions do not wait for it.

`Meter` is the process and its view models.  What a view model shows and holds back is what the
totals were when it last read them.  So it is never more than was transferred, and less by the
sessions' own counters only: by less than a flush for each session there was at that time, and by
nothing if they were over.  A chunk that goes out and its counting are one step here, as they are
for the law of the counters.
-/
import TwoSocks.Proofs.Accounting
import TwoSocks.Proofs.TransferTotals
import TwoSocks.Program.Deferral

namespace TwoSocks

open Server Prog

/-! ### What a process has moved -/

/-- The bytes that were transferred completely. -/
def moved (c : Pool sys Client Shared ThreadMem) (d : Direction) : Nat :=
  (c.threads.map fun t => (accountOf t).completed d).sum

/-- The bytes that reached the totals. -/
def tallied (c : Pool sys Client Shared ThreadMem) (d : Direction) : Nat :=
  (c.threads.map fun t => (accountOf t).recorded d).sum

section Moved

variable {client : Client} {g : Account} {inet : Inet} {cfg : Config} {whole : Block → Prop}
  {c c' : Pool sys Client Shared ThreadMem} {d : Direction}

theorem Account.le_count (f : Direction → Nat) (dir : Direction) (n : Nat) (d : Direction) :
    f d ≤ count f dir n d := by
  rw [count_apply]
  omega

/-- Nothing that was recorded is taken back. -/
theorem recorded_le_next (o : Op) (r : o.Ret) :
    g.recorded d ≤ (g.next client o r).recorded d := by
  cases o with
  | read fd len =>
      rcases r with e | buf
      · exact le_rfl
      · show _ ≤ (if len = TCP_COPY_BUFFER_SIZE then _ else _ : Account).recorded d
        split <;> exact le_rfl
  | recv fd len => rcases r with e | buf <;> exact le_rfl
  | write fd buf =>
      have hkeeps := (write_keeps client g fd buf r).2.2
      exact le_of_eq (congrFun hkeeps d).symm
  | send fd buf => rcases r with e | n <;> exact le_rfl
  | fetchAdd dir n => exact Account.le_count ..
  | socket af type => rcases r with e | fd <;> exact le_rfl
  | _ => exact le_rfl

/-- What reached the totals stays there. -/
theorem tallied_mono (h : Pool.Step (machine documented) (accepted inet cfg) whole c c') :
    tallied c d ≤ tallied c' d := by
  have hrun : ∀ (client : Client) (tr : Trace sys) (g : Account),
      g.recorded d ≤ ((accountSpec client).run g tr).recorded d := by
    intro client tr
    induction tr with
    | nil => exact fun g => le_rfl
    | cons e tr ih => exact fun g => (recorded_le_next e.op e.ret).trans (ih _)
  unfold tallied
  cases h with
  | start i => simp
  | @thread w w' pre post i p p' m m' past tr hs hp =>
      have hstep : (accountOf (⟨i, p, m, past⟩ : Thread sys Client ThreadMem)).recorded d ≤
          (accountOf (⟨i, p', m', past ++ tr⟩ : Thread sys Client ThreadMem)).recorded d := by
        unfold accountOf
        rw [Spec.run_append]
        exact hrun i tr _
      simp only [List.map_append, List.map_cons, List.sum_append, List.sum_cons]
      omega

end Moved

/-! ### What a session leaves behind -/

/-- What has nothing to do with the pending counters. -/
def Op.countless : Op → Prop
  | .storePending _ _ => False
  | _ => True

theorem Op.setup.countless {o : Op} (h : o.setup) : o.countless := by
  cases o <;> trivial

theorem Op.handshake.countless {o : Op} (h : o.handshake) : o.countless := by
  cases o <;> trivial

theorem Op.connecting.countless {o : Op} (h : o.connecting) : o.countless := by
  cases o <;> trivial

theorem Op.reaching.countless {o : Op} (h : o.reaching) : o.countless := by
  cases o <;> trivial

/-- Nothing is pending. -/
def Flushed (g : Direction → Nat) : Prop := ∀ d, g d = 0

section Flushed

variable {g : Direction → Nat}

theorem wlp_countless {α : Type} {p : Server α} (hp : Uses Op.countless p) (h : Flushed g) :
    wlp pendingSpec p (fun _ g' => Flushed g') g := by
  refine wlp_of_uses (fun _ _ => trivial) (fun _ _ _ _ => trivial) (fun g o r h ho _ => ?_) hp h
  cases o with
  | storePending d n => cases ho
  | _ => exact h

theorem asks_countless {o : Op} (ho : o.countless) : Asks pendingSpec Flushed o := by
  refine fun g h => ⟨trivial, fun r _ => ?_⟩
  cases o with
  | storePending d n => cases ho
  | _ => exact h

/-- An association leaves the counters alone. -/
theorem drained_rules (inet : Inet) (udpFd : Fd) :
    UdpRules pendingSpec inet udpFd (fun _ g => Flushed g) where
  inv _ _ _ := trivial
  abort _ _ _ := trivial
  polled _ _ _ h := h
  pinned _ _ h := h
  poll _ := asks_countless trivial
  control _ := asks_countless trivial
  perror _ := asks_countless trivial
  receive _ := asks_countless trivial
  receiveFrom _ := asks_countless trivial
  pin _ _ := asks_countless trivial
  closed _ _ _ _ h _ _ := wlp_countless (.bind (uses_perform trivial) fun _ =>
    .bind (uses_perform trivial) fun _ => trivial) h
  opened s _ addrport h := wlp_mono _ (fun _ _ hr => ⟨hr.2, hr.1⟩) (wlp_returns
    (openUdpDestination_returns s addrport)
    (wlp_countless ((openUdpDestination_reaching s addrport).mono fun _ ho => ho.countless) h))
  sent _ _ _ _ h _ := wlp_countless (sendRecorded_uses (fun _ => trivial) (fun _ _ => trivial) _) h
  replied _ _ _ _ _ h _ _ _ := wlp_mono _ (fun r _ h => by
    rcases r with e | payload
    · exact h
    · exact wlp_countless (writeRecorded_uses (fun _ => trivial) (fun _ _ => trivial) _ _) h)
    (wlp_countless (uses_perform trivial) h)

theorem copyLoopUdp_drained (h : Flushed g) (inet : Inet) (tcpFd udpFd : Fd) :
    wlp pendingSpec (copyLoopUdp inet tcpFd udpFd) (fun _ g' => Flushed g') g := by
  have hbound : Uses Op.countless (udpIsBound udpFd) := by
    refine .bind (uses_perform trivial) fun r => ?_
    rcases r with e | addr
    · dsimp only
      split
      · trivial
      · exact ⟨trivial, nofun⟩
    · trivial
  have hend : ∀ e, Uses Op.countless (udpLoopEnd e) := fun e =>
    .bind (uses_forEach (fun _ => uses_perform trivial) _) fun _ =>
      uses_forEach (fun _ => uses_perform trivial) _
  refine (wlp_bind _).mpr (wlp_mono _ (fun bound g₁ h₁ => ?_) (wlp_countless hbound h))
  simp only [bind_eq, pure_eq, wlp_bind, wlp_malloc]
  refine ⟨trivial, trivial, fun buf _ => ⟨trivial, trivial, trivial, fun sockList _ =>
    ⟨trivial, ?_⟩⟩⟩
  split
  · refine (wlp_bind _).mpr (wlp_mono _ (fun e g₂ h₂ => wlp_countless (hend e) h₂.1)
      ((drained_rules inet udpFd).loop (s := initialUdpLoop tcpFd udpFd bound) h₁))
  · exact ⟨trivial, h₁⟩

theorem setupRequest_countless (inet : Inet) (client : Client) (buf : Bytes) :
    Uses Op.countless (setupRequest inet client buf) := by
  refine .bind ((parseSocksRequestHeader_uses inet buf _).mono fun o ho =>
    (Op.lookup.setup o ho).countless) fun r => ?_
  rcases r with ec | ⟨_ | _, address, requestedAddr⟩
  · trivial
  · exact (setupConnect_connecting client address requestedAddr).mono fun _ ho => ho.countless
  · exact (setupUdpAssociate_setup client address).mono fun _ ho => ho.countless

/-- A session leaves nothing pending. -/
theorem clientthread_drained (inet : Inet) (cfg : Config) (client : Client) (h : Flushed g) :
    wlp pendingSpec (clientthread inet cfg client) (fun _ g' => Flushed g') g := by
  have hserving : ∀ {g} (buf : Bytes), Flushed g →
      wlp pendingSpec (serveRequest inet client buf) (fun _ g' => Flushed g') g := by
    intro g buf h
    refine (wlp_bind _).mpr (wlp_mono _ (fun relay g₁ h₁ => ?_)
      (wlp_countless (setupRequest_countless inet client buf) h))
    rcases relay with _ | ⟨remotefd, id, requestedAddr⟩ | fd
    · exact ⟨trivial, h₁⟩
    · unfold runRelay emitAddrportConnectionEvent
      simp only [bind_eq, wlp_bind, wlp_emitConnectionEvent, wlp_close]
      refine ⟨trivial, trivial, fun _ => ⟨trivial, wlp_mono _ ?_ (copyloop_drains _ _ _)⟩⟩
      exact fun _ g₂ h₂ => ⟨trivial, trivial, fun _ => ⟨trivial, trivial, trivial, fun _ =>
        ⟨trivial, h₂⟩⟩⟩
    · refine (wlp_bind _).mpr (wlp_mono _ ?_ (copyLoopUdp_drained h₁ inet client.fd fd))
      exact fun _ g₂ h₂ => ⟨trivial, trivial, fun _ _ => ⟨trivial, h₂⟩⟩
  have hhandshake : ∀ {α : Type} {p : Server α} {g}, Uses Op.handshake p → Flushed g →
      wlp pendingSpec p (fun _ g' => Flushed g') g :=
    fun hp h => wlp_countless (hp.mono fun _ ho => ho.countless) h
  have hend : ∀ (x : Unit ⊕ Unit) (g : Direction → Nat), Flushed g →
      Sum.elim (fun _ g => Flushed g) (fun _ g => Flushed g) x g := by
    rintro (_ | _) g h <;> exact h
  unfold clientthread
  simp only [bind_eq, wlp_bind, wlp_storeState, wlp_close, wlp_storeDone]
  refine ⟨trivial, trivial, fun _ => ⟨trivial, wlp_mono _ (fun _ g' h' => ?_)
    (wlp_iterate (Q := fun _ g => Flushed g) (fun _ g => Flushed g) h fun _ g h => ?_)⟩⟩
  · exact ⟨trivial, trivial, fun _ => ⟨trivial, trivial, trivial, fun _ => ⟨trivial, h'⟩⟩⟩
  unfold clientthreadBody
  simp only [bind_eq, pure_eq, wlp_bind, wlp_recv]
  refine ⟨trivial, trivial, fun r _ => ⟨trivial, ?_⟩⟩
  rcases r with e | buf
  · exact ⟨trivial, h⟩
  dsimp only
  split
  · exact ⟨trivial, h⟩
  simp only [wlp_bind, wlp_loadState]
  refine ⟨trivial, trivial, fun s _ => ⟨trivial, ?_⟩⟩
  cases s with
  | ss1Connected => exact wlp_mono _ hend (hhandshake (selectMethod_handshake cfg client buf) h)
  | ss2NeedAuth => exact wlp_mono _ hend (hhandshake (authenticate_handshake cfg client buf) h)
  | ss3Authed =>
      exact (wlp_bind _).mpr (wlp_mono _ (fun _ _ h' => ⟨trivial, h'⟩) (hserving buf h))

end Flushed

/-! ### The books of a process -/

/-- What holds between the bytes moved, the totals and the pending counters. -/
structure Books (c : Pool sys Client Shared ThreadMem) : Prop where
  total : ∀ d, c.world.total d = tallied c d % 2 ^ 64
  sum : ∀ d, tallied c d + (c.threads.map fun t => t.mem.pending d).sum = moved c d
  low : ∀ t ∈ c.threads, ∀ d, t.mem.pending d < TCP_COPY_ACCOUNTING_FLUSH_BYTES
  drained : ∀ t ∈ c.threads, t.prog = .ret () → Flushed t.mem.pending

section Books

variable {inet : Inet} {cfg : Config} {c c' : Pool sys Client Shared ThreadMem} {d : Direction}

theorem pending_keeps (inet : Inet) (cfg : Config) :
    Pool.Keeps (machine documented) (accepted inet cfg) (fun _ => pendingSpec) (fun _ _ => 0)
      (fun _ vs => ∀ v ∈ vs, v.2.1.pending = v.2.2) where
  start w vs i h v hv := by
    rcases List.mem_append.mp hv with hv | hv
    · exact h v hv
    · rw [List.mem_singleton.mp hv]
      rfl
  rely w pre post i m g o r _ h hcan := by
    have hm : m.pending = g := h _ (List.mem_append_right _ List.mem_cons_self)
    cases o with
    | loadPending d => exact hcan.trans (congrFun hm d)
    | _ => trivial
  event w pre post i m g o r _ h hcan _ v hv := by
    have hm : m.pending = g := h _ (List.mem_append_right _ List.mem_cons_self)
    rcases List.mem_append.mp hv with hv | hv
    · exact h v (List.mem_append_left _ hv)
    rcases List.mem_cons.mp hv with rfl | hv
    · subst hm
      cases o with
      | socket af type => rcases r with e | fd <;> rfl
      | abort => exact nomatch r
      | _ => rfl
    · exact h v (List.mem_append_right _ (List.mem_cons_of_mem _ hv))

theorem process_books (hc : Process documented inet cfg allWhole c) : Books c := by
  obtain ⟨ht, hb⟩ := Pool.Reachable.invariant (tallied_keeps inet cfg) (Q := fun _ _ => True)
    ⟨nofun, fun _ => rfl⟩ (fun _ _ ht _ => absurd trivial ht)
    (fun i => clientthread_balanced inet cfg) hc
  obtain ⟨hp, hd⟩ := Pool.Reachable.invariant (pending_keeps inet cfg) (Q := fun _ g => Flushed g)
    nofun (fun _ _ ht _ => absurd trivial ht)
    (fun i => clientthread_drained inet cfg i fun _ => rfl) hc
  have hpending : ∀ t ∈ c.threads, t.mem.pending = (accountOf t).pending :=
    fun t ht' => (ht.mirrors _ (List.mem_map.mpr ⟨t, ht', rfl⟩)).1
  have hbalanced : ∀ t ∈ c.threads, (accountOf t).Balanced := fun t ht' => (hb t ht').inv
  refine ⟨fun d => ?_, fun d => ?_, fun t ht' d => ?_, fun t ht' hover => ?_⟩
  · have htotal := ht.total d
    rw [List.map_map] at htotal
    exact htotal
  · unfold tallied moved
    rw [← List.sum_map_add]
    refine congrArg List.sum (List.map_congr_left fun t ht' => ?_)
    rw [hpending t ht']
    exact (hbalanced t ht' d).1
  · rw [hpending t ht']
    exact (hbalanced t ht' d).2.1
  · have hmem : t.mem.pending = pendingSpec.run (fun _ => 0) t.trace :=
      hp _ (List.mem_map.mpr ⟨t, ht', rfl⟩)
    rw [hmem]
    exact (hd t ht').returned hover

theorem Books.total_le (h : Books c) : c.world.total d ≤ moved c d := by
  have hsum := h.sum d
  have hmod := Nat.mod_le (tallied c d) (2 ^ 64)
  rw [h.total]
  omega

/-- The totals lack less than a flush for each session. -/
theorem Books.moved_le (h : Books c) (hfits : moved c d < 2 ^ 64) :
    moved c d ≤ c.world.total d + c.threads.length * (TCP_COPY_ACCOUNTING_FLUSH_BYTES - 1) := by
  have hsum := h.sum d
  have hpending : (c.threads.map fun t => t.mem.pending d).sum ≤
      c.threads.length * (TCP_COPY_ACCOUNTING_FLUSH_BYTES - 1) := by
    have hle := List.sum_le_card_nsmul (c.threads.map fun t => t.mem.pending d)
      (TCP_COPY_ACCOUNTING_FLUSH_BYTES - 1) fun n hn => by
        obtain ⟨t, ht, rfl⟩ := List.mem_map.mp hn
        exact Nat.le_pred_of_lt (h.low t ht d)
    simpa using hle
  rw [h.total, Nat.mod_eq_of_lt (by omega)]
  omega

/-- They lack nothing once the sessions are over. -/
theorem Books.moved_eq (h : Books c) (hfits : moved c d < 2 ^ 64)
    (hover : ∀ t ∈ c.threads, t.prog = .ret ()) : moved c d = c.world.total d := by
  have hsum := h.sum d
  have hpending : (c.threads.map fun t => t.mem.pending d).sum = 0 := by
    refine List.sum_eq_zero fun n hn => ?_
    obtain ⟨t, ht, rfl⟩ := List.mem_map.mp hn
    exact h.drained t ht (hover t ht) d
  rw [h.total, Nat.mod_eq_of_lt (by omega)]
  omega

end Books

/-! ### What the view models have seen -/

/-- What a view model shows and what it holds back. -/
def TransferVM.noticed (vm : TransferVM) (d : Direction) : Nat :=
  (vm.sessionBytes d).toNat + (vm.pendingBytes d).toNat

namespace TransferApp

/-- Each view model has seen the counters, at `low` or later. -/
structure Informed (low : Nat → Totals) (a : TransferApp) : Prop where
  reached : ∀ k d, low k d ≤ a.native d
  views : ∀ k, ∀ vm ∈ a.views k, ∀ d,
    vm.UpToDate d ∧ low k d ≤ vm.lastNativeBytes d ∧ vm.lastNativeBytes d ≤ a.native d

/-- What an event makes known, to whom. -/
def learned (a : TransferApp) (low : Nat → Totals) : TransferEvent → Nat → Totals
  | .create view _ _ | .poll view _ _ => Function.update low view a.native
  | .record _ | .destroy _ => low

section Informed

variable {low low' : Nat → Totals} {a a' : TransferApp} {view : Nat} {vm : TransferVM} {now : Date}
  {native : Totals} {e : TransferEvent}

theorem initial_informed (defaults : UserDefaults) : (initial defaults).Informed fun _ _ => 0 :=
  ⟨fun _ _ => UInt64.zero_le, nofun⟩

theorem Informed.mono (h : a.Informed low) (hle : ∀ k d, low' k d ≤ low k d) :
    a.Informed low' where
  reached k d := UInt64.le_trans (hle k d) (h.reached k d)
  views k vm hvm d :=
    have ⟨hbooks, hlow, hseen⟩ := h.views k vm hvm d
    ⟨hbooks, UInt64.le_trans (hle k d) hlow, hseen⟩

/-- The counters go up. -/
theorem Informed.grow (h : a.Informed low) (hle : ∀ d, a.native d ≤ native d) :
    Informed low { a with native } where
  reached k d := UInt64.le_trans (h.reached k d) (hle d)
  views k vm hvm d :=
    have ⟨hbooks, hlow, hseen⟩ := h.views k vm hvm d
    ⟨hbooks, hlow, UInt64.le_trans hseen (hle d)⟩

theorem refresh_native (h : a.refreshTransferTotals view vm now native = some a') :
    a'.native = native := by
  obtain ⟨s, -, h⟩ := Option.bind_eq_some_iff.mp h
  obtain rfl := Option.some.inj h
  rfl

/-- A refresh tells a view model where the counters were when it began. -/
theorem Informed.refresh (ha : a.Informed low)
    (hvm : ∀ d, vm.UpToDate d ∧ vm.lastNativeBytes d ≤ a.native d)
    (hle : ∀ d, a.native d ≤ native d)
    (h : a.refreshTransferTotals view vm now native = some a') :
    a'.Informed (Function.update low view a.native) := by
  obtain ⟨⟨vm', defaults'⟩, happly, h⟩ := Option.bind_eq_some_iff.mp h
  obtain rfl := Option.some.inj h
  have hpolled : ∀ d, TransferVM.Polled d (a.loads native) vm vm' := fun d =>
    (TransferVM.applyTransferTotals_spec happly (hvm d).1
      (UInt64.le_trans (hvm d).2 (le_loads hle).1)).1
  refine ⟨fun k d => ?_, fun k v hv d => ?_⟩
  · by_cases hk : k = view
    · rw [hk, Function.update_self]
      exact hle d
    · rw [Function.update_of_ne hk]
      exact UInt64.le_trans (ha.reached k d) (hle d)
  · by_cases hk : k = view
    · subst hk
      dsimp only at hv
      rw [Function.update_self] at hv ⊢
      obtain rfl := Option.some.inj hv
      refine ⟨(hpolled d).upToDate, ?_⟩
      rw [(hpolled d).seen]
      exact le_loads hle
    · dsimp only at hv
      rw [Function.update_of_ne hk] at hv ⊢
      obtain ⟨hbooks, hlow, hseen⟩ := ha.views k v hv d
      exact ⟨hbooks, hlow, UInt64.le_trans hseen (hle d)⟩

/-- **Nothing a view model has seen is lost, whatever happens.** -/
theorem Informed.step (ha : a.Informed low) (h : a.step e = some a') :
    a'.Informed (a.learned low e) := by
  cases e with
  | record native =>
      obtain ⟨hle, h⟩ := Option.ite_none_right_eq_some.mp h
      obtain rfl := Option.some.inj h
      exact ha.grow hle
  | create view now native =>
      obtain ⟨⟨hle, -⟩, h⟩ := Option.ite_none_right_eq_some.mp h
      have hload : ∀ d, (TransferVM.load a.defaults).UpToDate d ∧
          (TransferVM.load a.defaults).lastNativeBytes d ≤ a.native d :=
        fun d => ⟨rfl, UInt64.zero_le⟩
      exact ha.refresh hload hle h
  | poll view now native =>
      obtain ⟨hle, h⟩ := Option.ite_none_right_eq_some.mp h
      obtain ⟨vm, hvm, h⟩ := Option.bind_eq_some_iff.mp h
      refine ha.refresh (fun d => ?_) hle h
      obtain ⟨hbooks, -, hseen⟩ := ha.views view vm hvm d
      exact ⟨hbooks, hseen⟩
  | destroy view =>
      obtain rfl := Option.some.inj h
      refine ⟨ha.reached, fun k vm hvm => ?_⟩
      by_cases hk : k = view
      · subst hk
        simp at hvm
      · dsimp only at hvm
        rw [Function.update_of_ne hk] at hvm
        exact ha.views k vm hvm

theorem Informed.le_learned (ha : a.Informed low) (e : TransferEvent) (k : Nat) (d : Direction) :
    low k d ≤ a.learned low e k d := by
  have hupdate : ∀ view, low k d ≤ Function.update low view a.native k d := by
    intro view
    by_cases hk : k = view
    · subst hk
      rw [Function.update_self]
      exact ha.reached k d
    · rw [Function.update_of_ne hk]
      exact UInt64.le_refl _
  cases e with
  | create view now native => exact hupdate view
  | poll view now native => exact hupdate view
  | _ => exact UInt64.le_refl _

end Informed

end TransferApp

/-! ### The process and its view models -/

/-- The server and the app's view of it. -/
structure Meter where
  server : Pool sys Client Shared ThreadMem
  app : TransferApp

/-- The counters as the app loads them. -/
def totalsOf (c : Pool sys Client Shared ThreadMem) : Totals := fun d => .ofNat (c.world.total d)

/-- An event of the app, while the server may go on. -/
structure MeterStep (inet : Inet) (cfg : Config) (e : TransferEvent) (m m' : Meter) : Prop where
  served : Relation.ReflTransGen (Pool.Step (machine documented) (accepted inet cfg) allWhole)
    m.server m'.server
  app : m.app.step e = some m'.app
  native : m'.app.native = totalsOf m'.server

/-- What happens from `m` on. -/
abbrev MeterRun (inet : Inet) (cfg : Config) : Meter → Meter → Prop :=
  Relation.ReflTransGen fun m m' => ∃ e, MeterStep inet cfg e m m'

/-- A process that has just started. -/
def Meter.initial (defaults : UserDefaults) : Meter := ⟨⟨.initial, []⟩, .initial defaults⟩

section Run

variable {inet : Inet} {cfg : Config} {m m' : Meter} {e : TransferEvent} {d : Direction}

/-- What holds between two events. -/
structure Metered (inet : Inet) (cfg : Config) (low : Nat → Totals) (m : Meter) : Prop where
  process : Process documented inet cfg allWhole m.server
  native : m.app.native = totalsOf m.server
  informed : m.app.Informed low

theorem initial_metered (defaults : UserDefaults) :
    Metered inet cfg (fun _ _ => 0) (.initial defaults) :=
  ⟨.init, rfl, TransferApp.initial_informed defaults⟩

theorem Metered.step {low : Nat → Totals} (hm : Metered inet cfg low m)
    (h : MeterStep inet cfg e m m') : Metered inet cfg (m.app.learned low e) m' :=
  ⟨hm.process.further h.served, h.native, hm.informed.step h.app⟩

theorem Metered.run {low : Nat → Totals} (hm : Metered inet cfg low m)
    (h : MeterRun inet cfg m m') : Metered inet cfg low m' := by
  induction h with
  | refl => exact hm
  | tail _ h ih =>
      obtain ⟨e, h⟩ := h
      have hnext := ih.step h
      exact ⟨hnext.process, hnext.native, hnext.informed.mono (ih.informed.le_learned e)⟩

theorem totalsOf_toNat {c : Pool sys Client Shared ThreadMem}
    (hc : Process documented inet cfg allWhole c) : (totalsOf c d).toNat = c.world.total d := by
  have hlt : c.world.total d < 2 ^ 64 := by
    rw [(process_books hc).total]
    exact Nat.mod_lt _ (by decide)
  exact UInt64.toNat_ofNat_of_lt hlt

theorem tallied_further {c c' : Pool sys Client Shared ThreadMem}
    (h : Relation.ReflTransGen (Pool.Step (machine documented) (accepted inet cfg) allWhole) c c') :
    tallied c d ≤ tallied c' d := by
  induction h with
  | refl => exact Nat.le_refl _
  | tail _ hs ih => exact ih.trans (tallied_mono hs)

/-- The server's totals only go up, as the app expects of them. -/
theorem totals_grow {c c' : Pool sys Client Shared ThreadMem}
    (hc : Process documented inet cfg allWhole c)
    (h : Relation.ReflTransGen (Pool.Step (machine documented) (accepted inet cfg) allWhole) c c')
    (hfits : moved c' d < 2 ^ 64) : totalsOf c d ≤ totalsOf c' d := by
  have hc' := hc.further h
  have hgrown : tallied c d ≤ tallied c' d := tallied_further h
  have hsum := (process_books hc').sum d
  rw [UInt64.le_iff_toNat_le, totalsOf_toNat hc, totalsOf_toNat hc', (process_books hc).total,
    (process_books hc').total, Nat.mod_eq_of_lt (by omega), Nat.mod_eq_of_lt (by omega)]
  exact hgrown

end Run

/-- What a view model has noticed at `m'`, of what the server had transferred at `m`. -/
structure Notices (m m' : Meter) (vm : TransferVM) (d : Direction) : Prop where
  /-- Nothing that was not transferred. -/
  real : vm.noticed d ≤ moved m'.server d
  /-- All but less than a flush for each session. -/
  lag : moved m.server d ≤
    vm.noticed d + m.server.threads.length * (TCP_COPY_ACCOUNTING_FLUSH_BYTES - 1)
  /-- All of it if the sessions were over. -/
  settled : (∀ t ∈ m.server.threads, t.prog = .ret ()) → moved m.server d ≤ vm.noticed d

/--
**What a view model noticed is what was transferred, but for what its sessions hold back.**

The server can always be followed by the app, and after a view model has been created or has
polled, it has noticed what was transferred before that, from then on, whatever happens.
-/
theorem transfers_noticed {inet : Inet} {cfg : Config} {defaults : UserDefaults} {m : Meter}
    (hm : MeterRun inet cfg (.initial defaults) m) :
    (∀ c, Pool.Step (machine documented) (accepted inet cfg) allWhole m.server c →
      (∀ d, moved c d < 2 ^ 64) → ∃ m', MeterStep inet cfg (.record (totalsOf c)) m m' ∧
        m'.server = c) ∧
    ∀ (e : TransferEvent) (m₁ m₂ : Meter) (view : Nat), MeterStep inet cfg e m m₁ →
      ((∃ now native, e = .create view now native) ∨ ∃ now native, e = .poll view now native) →
      MeterRun inet cfg m₁ m₂ → ∀ vm ∈ m₂.app.views view, ∀ d, moved m.server d < 2 ^ 64 →
        Notices m m₂ vm d := by
  have hmetered := (initial_metered defaults).run hm
  constructor
  · intro c hstep hfits
    have hgrown : ∀ d, m.app.native d ≤ totalsOf c d := fun d => by
      rw [hmetered.native]
      exact totals_grow hmetered.process (.single hstep) (hfits d)
    exact ⟨⟨c, { m.app with native := totalsOf c }⟩,
      ⟨.single hstep, if_pos hgrown, rfl⟩, rfl⟩
  · intro e m₁ m₂ view hstep he hrun vm hvm d hfits
    have hm₁ := hmetered.step hstep
    have hlearned : m.app.learned (fun _ _ => 0) e view = m.app.native := by
      obtain ⟨now, native, rfl⟩ | ⟨now, native, rfl⟩ := he <;>
        simp only [TransferApp.learned, Function.update_self]
    have hm₂ := hm₁.run hrun
    obtain ⟨hbooks, hlow, hseen⟩ := hm₂.informed.views view vm hvm d
    rw [hlearned, hmetered.native] at hlow
    rw [hm₂.native] at hseen
    have hnoticed : vm.noticed d = (vm.lastNativeBytes d).toNat := hbooks
    have hlow : m.server.world.total d ≤ vm.noticed d := by
      rw [hnoticed, ← totalsOf_toNat hmetered.process]
      exact UInt64.le_iff_toNat_le.mp hlow
    have hseen : vm.noticed d ≤ m₂.server.world.total d := by
      rw [hnoticed, ← totalsOf_toNat hm₂.process]
      exact UInt64.le_iff_toNat_le.mp hseen
    refine ⟨hseen.trans (process_books hm₂.process).total_le, ?_, fun hover => ?_⟩
    · have hclose := (process_books hmetered.process).moved_le hfits
      omega
    · rw [(process_books hmetered.process).moved_eq hfits hover]
      exact hlow

/-- Two bytes were uploaded. -/
def twoUploaded : Totals
  | .downloaded => 0
  | .uploaded => 2

/-- A process whose only session is `uploadTrace`. -/
theorem exists_upload : ∃ c : Pool sys Client Shared ThreadMem,
    Process documented Inet.plain ⟨none, none, false⟩ allWhole c ∧ totalsOf c = twoUploaded ∧
      moved c .uploaded = 2 ∧ ∀ t ∈ c.threads, t.prog = .ret () := by
  have hc : Process documented Inet.plain ⟨none, none, false⟩ allWhole
      ⟨_, [⟨webClient, _, _, _⟩]⟩ :=
    Pool.Reachable.session webClient .init
      (eval_of_replay 60 uploadTrace rfl) (by
        repeat' first | apply Pool.Performs.nil | apply Pool.Performs.cons
        all_goals first | trivial | rfl | skip
        -- what is left are the new descriptor and the length of what was read
        · intro t
          cases t <;> decide
        · show 2 ≤ TCP_COPY_BUFFER_SIZE
          decide)
  refine ⟨_, hc, ?_, by decide, by simp⟩
  funext d
  cases d <;> rfl

/-- The window opens after two bytes were uploaded, and has noticed them. -/
theorem transfers_noticed_upload : ∃ (m : Meter) (vm : TransferVM),
    MeterRun Inet.plain ⟨none, none, false⟩ (.initial fun _ => none) m ∧
      m.app.views 0 = some vm ∧ vm.noticed .uploaded = 2 := by
  obtain ⟨c, hc, htotals, hmoved, hover⟩ := exists_upload
  have hrun : MeterRun Inet.plain ⟨none, none, false⟩ (.initial fun _ => none)
      ⟨c, ⟨twoUploaded, fun _ => none, fun _ => none⟩⟩ :=
    .single ⟨.record twoUploaded, hc.run, by rfl, htotals.symm⟩
  have hviews : ((TransferApp.step ⟨twoUploaded, fun _ => none, fun _ => none⟩
      (.create 0 0 twoUploaded)).bind fun a => a.views 0).isSome := by decide +kernel
  obtain ⟨vm, hvm⟩ := Option.isSome_iff_exists.mp hviews
  obtain ⟨a, ha, hvm⟩ := Option.bind_eq_some_iff.mp hvm
  have hnative : a.native = twoUploaded := by
    simp only [TransferApp.step] at ha
    obtain ⟨-, ha⟩ := Option.ite_none_right_eq_some.mp ha
    exact TransferApp.refresh_native ha
  have hstep : MeterStep Inet.plain ⟨none, none, false⟩ (.create 0 0 twoUploaded)
      ⟨c, ⟨twoUploaded, fun _ => none, fun _ => none⟩⟩ ⟨c, a⟩ :=
    ⟨.refl, ha, hnative.trans htotals.symm⟩
  have hnotices := (transfers_noticed hrun).2 _ _ _ 0 hstep (.inl ⟨0, _, rfl⟩) .refl vm hvm
    .uploaded (by rw [hmoved]; decide)
  exact ⟨_, vm, hrun.tail ⟨_, hstep⟩, hvm,
    Nat.le_antisymm (hmoved ▸ hnotices.real) (hmoved ▸ hnotices.settled hover)⟩

end TwoSocks
