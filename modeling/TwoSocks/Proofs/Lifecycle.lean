/-
The life of a reported connection.

Every identifier a thread is given ends up with one of three histories: an error, or an
opening followed by a closing or an error.  What has to be kept track of is which
identifiers still owe events.  `Outstanding` says it: `fresh` are identifiers with no
event yet, `opened` are the `OPEN` events still without an end, and every other
identifier is done.  For a UDP association `opened` is `sock_list`.

Identifiers come from one counter, so no two threads share one and the events of an
identifier are those its thread emitted, in that order.
-/
import TwoSocks.Proofs.InetText
import TwoSocks.Proofs.Operations
import TwoSocks.Proofs.UdpRules

namespace TwoSocks

open Server Prog

/-! ### Histories -/

/-- The states a connection may be reported with, from beginning to end. -/
def lifecycles : List (List ConnectionState) := [[.error], [.opened, .closed], [.opened, .error]]

/-- The events of one connection so far. -/
structure Lawful (es : List ConnectionEvent) : Prop where
  states : ∃ full ∈ lifecycles, es.map (·.state) <+: full
  target : ∀ e ∈ es, ∀ e' ∈ es, e.protocol = e'.protocol ∧ e.host = e'.host ∧ e.port = e'.port
  code : ∀ e ∈ es, e.errorCode.code ≠ 0 ↔ e.state = .error

/-- All events of one connection. -/
def Complete (es : List ConnectionEvent) : Prop := es.map (·.state) ∈ lifecycles

/-- The events of one identifier. -/
def eventsOf (log : List ConnectionEvent) (id : Int) : List ConnectionEvent :=
  log.filter fun e => e.identifier = id

theorem eventsOf_append {log : List ConnectionEvent} {e : ConnectionEvent} :
    eventsOf (log ++ [e]) e.identifier = eventsOf log e.identifier ++ [e] := by
  simp [eventsOf]

theorem eventsOf_append_ne {log : List ConnectionEvent} {e : ConnectionEvent} {id : Int}
    (h : id ≠ e.identifier) : eventsOf (log ++ [e]) id = eventsOf log id := by
  simp [eventsOf, h.symm]

theorem eventsOf_eq_nil {log : List ConnectionEvent} {id : Int}
    (h : ∀ e ∈ log, e.identifier ≠ id) : eventsOf log id = [] :=
  List.filter_eq_nil_iff.mpr fun e he heq => h e he (of_decide_eq_true heq)

theorem lawful_nil : Lawful [] := by
  refine ⟨⟨[.error], by simp [lifecycles], List.nil_prefix⟩, ?_, ?_⟩ <;> intro e he <;> cases he

theorem code_iff {state : ConnectionState} {ec : Errorcode} (h : Matches state ec) :
    ec.code ≠ 0 ↔ state = .error := (not_congr Errorcode.code_eq_zero).trans h

theorem lawful_single {e : ConnectionEvent} (hs : e.state ≠ .closed)
    (hm : Matches e.state e.errorCode) : Lawful [e] := by
  refine ⟨?_, ?_, ?_⟩
  · cases hstate : e.state with
    | opened => exact ⟨[.opened, .closed], by simp [lifecycles], by simp [hstate]⟩
    | error => exact ⟨[.error], by simp [lifecycles], by simp [hstate]⟩
    | closed => exact absurd hstate hs
  · intro e₁ h₁ e₂ h₂
    rw [List.mem_singleton.mp h₁, List.mem_singleton.mp h₂]
    exact ⟨rfl, rfl, rfl⟩
  · intro e' he'
    rw [List.mem_singleton.mp he']
    exact code_iff hm

/-- The end of a connection: the same target, another state. -/
def ConnectionEvent.ended (e : ConnectionEvent) (state : ConnectionState) (ec : Errorcode) :
    ConnectionEvent := { e with state := state, errorCode := ec }

theorem complete_pair {e : ConnectionEvent} (he : e.state = .opened) {state : ConnectionState}
    {ec : Errorcode} (hs : state ≠ .opened) : Complete [e, e.ended state ec] := by
  cases state with
  | opened => exact absurd rfl hs
  | closed | error => simp [Complete, lifecycles, he, ConnectionEvent.ended]

theorem lawful_pair {e : ConnectionEvent} (he : e.state = .opened)
    (hm : Matches e.state e.errorCode) {state : ConnectionState} {ec : Errorcode}
    (hs : state ≠ .opened) (hm' : Matches state ec) : Lawful [e, e.ended state ec] := by
  refine ⟨⟨_, complete_pair he hs, List.prefix_rfl⟩, ?_, ?_⟩
  · have htarget : ∀ e' ∈ [e, e.ended state ec], e'.protocol = e.protocol ∧ e'.host = e.host ∧
        e'.port = e.port := by
      intro e' he'
      rcases List.mem_pair.mp he' with rfl | rfl <;> exact ⟨rfl, rfl, rfl⟩
    intro e₁ h₁ e₂ h₂
    obtain ⟨hp₁, hh₁, hport₁⟩ := htarget e₁ h₁
    obtain ⟨hp₂, hh₂, hport₂⟩ := htarget e₂ h₂
    exact ⟨hp₁.trans hp₂.symm, hh₁.trans hh₂.symm, hport₁.trans hport₂.symm⟩
  · intro e' he'
    rcases List.mem_pair.mp he' with rfl | rfl
    · exact code_iff hm
    · exact code_iff hm'

/-! ### One thread -/

/-- The identifiers a thread was given and the events it emitted. -/
structure Reports where
  issued : List Int
  log : List ConnectionEvent

/-- What a thread may report. -/
def reportSpec : Spec sys Reports where
  rely g o r := match o, r with
    | .nextConnectionIdentifier, r => r ∉ g.issued
    | _, _ => True
  guar g o := match o with
    | .handler e => e.identifier ∈ g.issued ∧ Lawful (eventsOf g.log e.identifier ++ [e])
    | _ => True
  next g o r := match o, r with
    | .nextConnectionIdentifier, r => { g with issued := g.issued ++ [r] }
    | .handler e, _ => { g with log := g.log ++ [e] }
    | _, _ => g

/-- Which identifiers owe events, and which. -/
structure Outstanding (fresh : List Int) (opened : List ConnectionEvent) (g : Reports) : Prop where
  nodup : (fresh ++ opened.map (·.identifier)).Nodup
  unreported : ∀ id ∈ fresh, id ∈ g.issued ∧ eventsOf g.log id = []
  open_ : ∀ e ∈ opened, e.identifier ∈ g.issued ∧ eventsOf g.log e.identifier = [e] ∧
    e.state = .opened ∧ Matches e.state e.errorCode
  done : ∀ id ∈ g.issued, id ∉ fresh ++ opened.map (·.identifier) → Complete (eventsOf g.log id)
  logged : ∀ e ∈ g.log, e.identifier ∈ g.issued

namespace Outstanding

variable {fresh : List Int} {opened : List ConnectionEvent} {g : Reports}

theorem perm {opened' : List ConnectionEvent} (h : Outstanding fresh opened g)
    (hp : opened.Perm opened') : Outstanding fresh opened' g where
  nodup := (List.Perm.append_left fresh (hp.map _)).nodup_iff.mp h.nodup
  unreported := h.unreported
  open_ e he := h.open_ e (hp.mem_iff.mpr he)
  done id hid hnot := h.done id hid fun hin =>
    hnot ((List.Perm.append_left fresh (hp.map _)).mem_iff.mp hin)
  logged := h.logged

/-- A new identifier owes its first event. -/
theorem handed (h : Outstanding fresh opened g) {id : Int} (hid : id ∉ g.issued) :
    Outstanding (id :: fresh) opened (reportSpec.next g .nextConnectionIdentifier id) where
  nodup := by
    refine List.nodup_cons.mpr ⟨fun hin => ?_, h.nodup⟩
    rcases List.mem_append.mp hin with hin | hin
    · exact hid (h.unreported id hin).1
    · obtain ⟨e, he, rfl⟩ := List.mem_map.mp hin
      exact hid (h.open_ e he).1
  unreported id' hid' := by
    rcases List.mem_cons.mp hid' with rfl | hid'
    · exact ⟨List.mem_concat_self, eventsOf_eq_nil fun e he heq => hid (heq ▸ h.logged e he)⟩
    · exact ⟨List.mem_append_left _ (h.unreported id' hid').1, (h.unreported id' hid').2⟩
  open_ e he := ⟨List.mem_append_left _ (h.open_ e he).1, (h.open_ e he).2⟩
  done id' hid' hnot := by
    rcases List.mem_append.mp hid' with hid' | hid'
    · exact h.done id' hid' fun hin => hnot (List.mem_cons_of_mem _ hin)
    · exact absurd (List.mem_singleton.mp hid' ▸ List.mem_cons_self) hnot
  logged e he := List.mem_append_left _ (h.logged e he)

/-- What an event leaves of the other identifiers. -/
theorem others {e : ConnectionEvent} (h : Outstanding fresh opened g)
    (hid : e.identifier ∈ g.issued) :
    ∀ e' ∈ (reportSpec.next g (.handler e) ()).log, e'.identifier ∈ g.issued := by
  intro e' he'
  rcases List.mem_append.mp he' with he' | he'
  · exact h.logged e' he'
  · rw [List.mem_singleton.mp he']
    exact hid

/-- A connection that failed owes nothing any more. -/
theorem failed {e : ConnectionEvent} (h : Outstanding (e.identifier :: fresh) opened g)
    (hs : e.state = .error) (hm : Matches e.state e.errorCode) :
    reportSpec.guar g (.handler e) ∧
      Outstanding fresh opened (reportSpec.next g (.handler e) ()) := by
  obtain ⟨hid, hnone⟩ := h.unreported _ List.mem_cons_self
  obtain ⟨hnot, hnodup⟩ := List.nodup_cons.mp h.nodup
  refine ⟨⟨hid, ?_⟩, hnodup, fun id hin => ?_, fun e' he' => ?_, fun id hin hother => ?_,
    h.others hid⟩
  · rw [hnone]
    exact lawful_single (by rw [hs]; decide) hm
  · have hne : id ≠ e.identifier := fun heq => hnot (heq ▸ List.mem_append_left _ hin)
    exact ⟨(h.unreported id (List.mem_cons_of_mem _ hin)).1,
      (eventsOf_append_ne hne).trans (h.unreported id (List.mem_cons_of_mem _ hin)).2⟩
  · have hne : e'.identifier ≠ e.identifier := fun heq =>
      hnot (heq ▸ List.mem_append_right _ (List.mem_map_of_mem he'))
    exact ⟨(h.open_ e' he').1, (eventsOf_append_ne hne).trans (h.open_ e' he').2.1,
      (h.open_ e' he').2.2⟩
  · by_cases heq : id = e.identifier
    · subst heq
      show Complete (eventsOf (g.log ++ [e]) _)
      rw [eventsOf_append, hnone]
      simp [Complete, lifecycles, hs]
    · show Complete (eventsOf (g.log ++ [e]) _)
      rw [eventsOf_append_ne heq]
      exact h.done id hin fun hin' => hother ((List.mem_cons.mp hin').resolve_left heq)

/-- A connection that was opened owes its end. -/
theorem opens {e : ConnectionEvent} (h : Outstanding (e.identifier :: fresh) opened g)
    (hs : e.state = .opened) (hm : Matches e.state e.errorCode) :
    reportSpec.guar g (.handler e) ∧
      Outstanding fresh (e :: opened) (reportSpec.next g (.handler e) ()) := by
  obtain ⟨hid, hnone⟩ := h.unreported _ List.mem_cons_self
  obtain ⟨hnot, hnodup⟩ := List.nodup_cons.mp h.nodup
  have hmiddle : (fresh ++ (e :: opened).map (·.identifier)).Perm
      (e.identifier :: (fresh ++ opened.map (·.identifier))) := List.perm_middle
  refine ⟨⟨hid, ?_⟩, hmiddle.nodup_iff.mpr h.nodup, fun id hin => ?_, fun e' he' => ?_,
    fun id hin hother => ?_, h.others hid⟩
  · rw [hnone]
    exact lawful_single (by rw [hs]; decide) hm
  · have hne : id ≠ e.identifier := fun heq => hnot (heq ▸ List.mem_append_left _ hin)
    exact ⟨(h.unreported id (List.mem_cons_of_mem _ hin)).1,
      (eventsOf_append_ne hne).trans (h.unreported id (List.mem_cons_of_mem _ hin)).2⟩
  · rcases List.mem_cons.mp he' with rfl | he'
    · exact ⟨hid, by show eventsOf (g.log ++ [e']) _ = _; rw [eventsOf_append, hnone]; rfl, hs, hm⟩
    · have hne : e'.identifier ≠ e.identifier := fun heq =>
        hnot (heq ▸ List.mem_append_right _ (List.mem_map_of_mem he'))
      exact ⟨(h.open_ e' he').1, (eventsOf_append_ne hne).trans (h.open_ e' he').2.1,
        (h.open_ e' he').2.2⟩
  · have hother' : id ∉ e.identifier :: (fresh ++ opened.map (·.identifier)) :=
      fun hin' => hother (hmiddle.mem_iff.mpr hin')
    have hne : id ≠ e.identifier := fun heq => hother' (heq ▸ List.mem_cons_self)
    show Complete (eventsOf (g.log ++ [e]) _)
    rw [eventsOf_append_ne hne]
    exact h.done id hin hother'

/-- An open connection ends. -/
theorem ends {e : ConnectionEvent} (h : Outstanding fresh (e :: opened) g)
    {state : ConnectionState} {ec : Errorcode} (hs : state ≠ .opened) (hm : Matches state ec) :
    reportSpec.guar g (.handler (e.ended state ec)) ∧
      Outstanding fresh opened (reportSpec.next g (.handler (e.ended state ec)) ()) := by
  obtain ⟨hid, hone, hopen, hmatch⟩ := h.open_ e List.mem_cons_self
  have hmiddle : (fresh ++ (e :: opened).map (·.identifier)).Perm
      (e.identifier :: (fresh ++ opened.map (·.identifier))) := List.perm_middle
  obtain ⟨hnot, hnodup⟩ := List.nodup_cons.mp (hmiddle.nodup_iff.mp h.nodup)
  refine ⟨⟨hid, ?_⟩, hnodup, fun id hin => ?_, fun e' he' => ?_, fun id hin hother => ?_,
    h.others (e := e.ended state ec) hid⟩
  · show Lawful (eventsOf g.log e.identifier ++ _)
    rw [hone]
    exact lawful_pair hopen hmatch hs hm
  · have hne : id ≠ e.identifier := fun heq => hnot (heq ▸ List.mem_append_left _ hin)
    exact ⟨(h.unreported id hin).1,
      (eventsOf_append_ne (e := e.ended state ec) hne).trans (h.unreported id hin).2⟩
  · have hne : e'.identifier ≠ e.identifier := fun heq =>
      hnot (heq ▸ List.mem_append_right _ (List.mem_map_of_mem he'))
    have he' := h.open_ e' (List.mem_cons_of_mem _ he')
    exact ⟨he'.1, (eventsOf_append_ne (e := e.ended state ec) hne).trans he'.2.1, he'.2.2⟩
  · by_cases heq : id = e.identifier
    · subst heq
      show Complete (eventsOf (g.log ++ [e.ended state ec]) (e.ended state ec).identifier)
      rw [eventsOf_append]
      show Complete (eventsOf g.log e.identifier ++ _)
      rw [hone]
      exact complete_pair hopen hs
    · show Complete (eventsOf (g.log ++ [e.ended state ec]) _)
      rw [eventsOf_append_ne (e := e.ended state ec) heq]
      exact h.done id hin fun hin' =>
        hother ((List.mem_cons.mp (hmiddle.mem_iff.mp hin')).resolve_left heq)

end Outstanding

/-! ### The UDP relay -/

/-- The event a destination was opened with. -/
def FdSocks5addr.openEvent (item : FdSocks5addr) : ConnectionEvent :=
  ⟨item.connectionId, .udp, .opened, item.addrport.addr, item.addrport.port, .success⟩

/-- The destinations of an association are what it has open. -/
def Owes (s : UdpLoop) (g : Reports) : Prop :=
  Outstanding [] (s.sockList.items.map FdSocks5addr.openEvent) g

/-- What a thread asks for without reporting. -/
def Op.silent : Op → Prop
  | .handler _ | .nextConnectionIdentifier => False
  | _ => True

/-- A program that reports nothing leaves the reports as they are. -/
theorem wlp_silent {α : Type} {p : Server α} {g : Reports} (h : Uses Op.silent p) :
    wlp reportSpec p (fun _ g' => g' = g) g := by
  refine wlp_of_uses (J := (· = g)) (fun _ _ => trivial) (fun _ o _ ho => ?_)
    (fun g' o r hg ho _ => ?_) h rfl
  · cases o <;> trivial
  · cases o <;> first | exact hg | cases ho

section Udp

variable {s : UdpLoop} {g : Reports} {opened : List ConnectionEvent}

theorem closeUdpDestination_reports (h : Owes s g) {idx : Nat}
    (hidx : idx < s.sockList.items.length) {state : ConnectionState} {ec : Errorcode}
    (hs : state ≠ .opened) (hm : Matches state ec) :
    wlp reportSpec (closeUdpDestination s idx state ec) Owes g := by
  have hitem : s.sockList.itemFromIndex idx = s.sockList.items[idx] :=
    List.getD_eq_getElem _ _ hidx
  have hperm : (s.sockList.items.map FdSocks5addr.openEvent).Perm
      (s.sockList.items[idx].openEvent ::
        (s.sockList.items.eraseIdx idx).map FdSocks5addr.openEvent) :=
    (List.getElem_cons_eraseIdx_perm hidx).symm.map _
  obtain ⟨hguar, hrest⟩ := (Outstanding.perm h hperm).ends hs hm
  unfold closeUdpDestination emitAddrportConnectionEvent
  rw [hitem]
  simp only [bind_eq, pure_eq, wlp_bind, wlp_close, wlp_emitConnectionEvent]
  exact ⟨trivial, trivial, fun _ => ⟨trivial, trivial, hguar, fun _ => ⟨trivial, trivial, hrest⟩⟩⟩

theorem failUdpDestination_reports (h : Outstanding [] opened g) (addrport : Socks5Addrport)
    {ec : Errorcode} (hec : ec ≠ .success) :
    wlp reportSpec (failUdpDestination addrport ec) (fun _ g' => Outstanding [] opened g') g := by
  unfold failUdpDestination emitAddrportConnectionEvent
  simp only [bind_eq, wlp_bind, wlp_nextConnectionIdentifier, wlp_emitConnectionEvent]
  refine ⟨trivial, trivial, fun id hid => ⟨trivial, trivial, ?_⟩⟩
  have hfresh := h.handed hid
  obtain ⟨hguar, hrest⟩ := Outstanding.failed
    (e := ⟨id, .udp, .error, addrport.addr, addrport.port, ec⟩) hfresh rfl (by simp [Matches, hec])
  exact ⟨hguar, fun _ => ⟨trivial, hrest⟩⟩

theorem openUdpDestination_reports (h : Owes s g) (addrport : Socks5Addrport) :
    wlp reportSpec (openUdpDestination s addrport) (Tried Owes) g := by
  have hfail : ∀ {ec : Errorcode}, ec ≠ .success → wlp reportSpec
      (do failUdpDestination addrport ec; return (s, none)) (Tried Owes) g :=
    fun hec => (wlp_bind _).mpr (wlp_mono _ (fun _ g' hg' => ⟨trivial, hg', nofun⟩)
      (failUdpDestination_reports h addrport hec))
  unfold openUdpDestination resolveSocks5Addrport
  simp only [bind_eq, pure_eq, wlp_bind, wlp_getaddrinfo]
  refine ⟨trivial, trivial, fun r _ => ⟨trivial, ?_⟩⟩
  rcases r with _ | targetAddr
  · exact ⟨trivial, hfail generalFailure_ne_success⟩
  simp only [wlp_bind, wlp_ret, wlp_socket]
  refine ⟨trivial, trivial, trivial, fun r _ => ⟨trivial, ?_⟩⟩
  rcases r with e | fd
  · exact hfail (socketErrorCodeFromErrno_ne_success e)
  simp only [wlp_bind, wlp_connect]
  refine ⟨trivial, trivial, fun r _ => ⟨trivial, ?_⟩⟩
  rcases r with e | ⟨⟩
  · simp only [wlp_bind, wlp_close]
    exact ⟨trivial, trivial, fun _ => ⟨trivial,
      (wlp_bind _).mp (hfail (socketErrorCodeFromErrno_ne_success e))⟩⟩
  simp only [wlp_bind, wlp_nextConnectionIdentifier]
  refine ⟨trivial, trivial, fun id hid => ⟨trivial, ?_⟩⟩
  have hfresh := Outstanding.handed h hid
  obtain ⟨hguar, hrest⟩ := Outstanding.failed
    (e := ⟨id, .udp, .error, addrport.addr, addrport.port, .generalFailure⟩) hfresh rfl
    (by simp [Matches])
  have hgiveUp : ∀ {g' : Reports}, g' = reportSpec.next g .nextConnectionIdentifier id →
      wlp reportSpec (do
        close fd
        emitAddrportConnectionEvent id .udp .error addrport .generalFailure
        return (s, none)) (Tried Owes) g' := by
    rintro _ rfl
    unfold emitAddrportConnectionEvent
    simp only [bind_eq, pure_eq, wlp_bind, wlp_close, wlp_emitConnectionEvent]
    exact ⟨trivial, trivial, fun _ => ⟨trivial, trivial, hguar, fun _ =>
      ⟨trivial, trivial, hrest, nofun⟩⟩⟩
  have htrack : ∀ {sockList : Sblist FdSocks5addr} {g' : Reports},
      sockList.items = s.sockList.items ++ [⟨fd, id, addrport⟩] →
      g' = reportSpec.next g .nextConnectionIdentifier id →
      wlp reportSpec (do
        let s := s.track sockList fd
        emitAddrportConnectionEvent id .udp .opened addrport .success
        return (s, some (fd, s.sockList.getsize - 1))) (Tried Owes) g' := by
    rintro sockList _ hitems rfl
    obtain ⟨hguar, hrest⟩ := Outstanding.opens (e := FdSocks5addr.openEvent ⟨fd, id, addrport⟩)
      hfresh rfl (by simp [Matches, FdSocks5addr.openEvent])
    unfold emitAddrportConnectionEvent
    simp only [bind_eq, pure_eq, wlp_bind, wlp_emitConnectionEvent]
    refine ⟨trivial, hguar, fun _ => ⟨trivial, trivial, ?_, ?_⟩⟩
    · show Outstanding [] (sockList.items.map FdSocks5addr.openEvent) _
      rw [hitems, List.map_append]
      exact hrest.perm (List.perm_append_singleton _ _).symm
    · rintro _ _ ⟨⟩
      show ∃ h : sockList.items.length - 1 < sockList.items.length, _
      exact ⟨by simp [hitems], by simp [UdpLoop.track, hitems, Sblist.getsize]⟩
  split
  · exact hgiveUp rfl
  · refine (wlp_bind _).mpr (wlp_sblistAdd _ _ trivial (fun _ => trivial) (fun _ _ => trivial)
      (fun l' hl' => htrack hl' rfl) (fun _ => hgiveUp rfl) (fun _ l' hl' => htrack hl' rfl))

/-- Every part of the loop reports what it must. -/
theorem report_rules (inet : Inet) (udpFd : Fd) : UdpRules reportSpec inet udpFd Owes where
  inv _ _ _ := trivial
  abort _ _ _ := trivial
  polled _ _ _ h := h
  pinned _ _ h := h
  poll _ _ h := ⟨trivial, fun _ _ => h⟩
  control _ _ h := ⟨trivial, fun _ _ => h⟩
  perror _ _ h := ⟨trivial, fun _ _ => h⟩
  receive _ _ h := ⟨trivial, fun _ _ => h⟩
  receiveFrom _ _ h := ⟨trivial, fun _ _ => h⟩
  pin _ _ _ h := ⟨trivial, fun _ _ => h⟩
  closed _ _ _ _ h hidx hec :=
    closeUdpDestination_reports h hidx (by decide) (by simp [Matches, hec])
  opened _ _ addrport h := openUdpDestination_reports h addrport
  sent s g idx payload h hidx :=
    wlp_mono _ (by rintro _ _ rfl; exact h)
      (wlp_silent (sendRecorded_uses (fun _ => trivial) (fun _ _ => trivial) _))
  replied s g i idx header h hidx hfd hheader := by
    refine ⟨trivial, trivial, fun r _ => ⟨trivial, ?_⟩⟩
    rcases r with e | payload
    · exact h
    · exact wlp_mono _ (by rintro _ _ rfl; exact h)
        (wlp_silent (writeRecorded_uses (fun _ => trivial) (fun _ _ => trivial) _ _))

/-- At the end of an association every destination still there ends with it. -/
theorem udpLoopEnd_reports {e : UdpEnd} (h : Owes e.loop g) (hp : e.Proper) :
    wlp reportSpec (udpLoopEnd e) (fun _ g' => Outstanding [] [] g') g := by
  have hemit : ∀ (items : List FdSocks5addr) {g : Reports},
      Outstanding [] (items.map FdSocks5addr.openEvent) g →
      wlp reportSpec (forEach (fun item => emitAddrportConnectionEvent item.connectionId .udp
        e.finalState item.addrport e.errorCode) items) (fun _ g' => Outstanding [] [] g') g := by
    intro items
    induction items with
    | nil => intro g h; exact ⟨trivial, h⟩
    | cons item items ih =>
        intro g h
        obtain ⟨hguar, hrest⟩ := h.ends hp.1 hp.2
        exact ⟨trivial, hguar, fun _ _ => ih hrest⟩
  refine (wlp_bind _).mpr (wlp_mono _ (fun _ g' hg' => ?_) (hemit _ h))
  exact wlp_mono _ (by rintro _ _ rfl; exact hg')
    (wlp_silent (uses_forEach (fun _ => uses_perform trivial) _))

theorem copyLoopUdp_reports (inet : Inet) (tcpFd udpFd : Fd) (h : Outstanding [] [] g) :
    wlp reportSpec (copyLoopUdp inet tcpFd udpFd) (fun _ g' => Outstanding [] [] g') g := by
  have hbound : Uses Op.silent (udpIsBound udpFd) := by
    refine .bind (uses_perform trivial) fun r => ?_
    rcases r with e | addr
    · dsimp only
      split
      · trivial
      · exact ⟨trivial, nofun⟩
    · trivial
  refine (wlp_bind _).mpr (wlp_mono _ ?_ (wlp_silent hbound))
  rintro bound _ rfl
  simp only [bind_eq, pure_eq, wlp_bind, wlp_malloc]
  refine ⟨trivial, trivial, fun buf _ => ⟨trivial, trivial, trivial, fun sockList _ =>
    ⟨trivial, ?_⟩⟩⟩
  split
  · refine (wlp_bind _).mpr (wlp_mono _ ?_ ((report_rules inet udpFd).loop
      (s := initialUdpLoop tcpFd udpFd bound) h))
    exact fun e g' he => udpLoopEnd_reports he.1 he.2
  · exact ⟨trivial, h⟩

end Udp

/-! ### A request -/

section Request

variable {g : Reports}

/-- What the setup of a request owes: a connection that will be relayed its first event. -/
def Pending : Relay → Reports → Prop
  | .tcp _ connectionId _, g => Outstanding [connectionId] [] g
  | _, g => Outstanding [] [] g

theorem setup_silent : ∀ o : Op, o.setup → o.silent := by
  intro o h
  cases o <;> trivial

theorem relaying_silent : ∀ o : Op, o.relaying → o.silent := by
  intro o h
  cases o <;> trivial

theorem setupConnect_reports (h : Outstanding [] [] g) (client : Client)
    (address : SockaddrUnion) (requestedAddr : Socks5Addrport) :
    wlp reportSpec (setupConnect client address requestedAddr) Pending g := by
  unfold setupConnect emitAddrportConnectionEvent sendResponse
  simp only [bind_eq, pure_eq, wlp_bind, wlp_nextConnectionIdentifier]
  refine ⟨trivial, trivial, fun id hid => ⟨trivial, ?_⟩⟩
  have hfresh := h.handed hid
  have hfailed : ∀ {ec : Errorcode}, ec ≠ .success → _ := fun {ec} hec => Outstanding.failed
    (e := ⟨id, .tcp, .error, requestedAddr.addr, requestedAddr.port, ec⟩) hfresh rfl
    (by simp [Matches, hec])
  refine wlp_mono _ ?_ (wlp_returns (connectSocksTarget_returns address)
    (wlp_silent (((connectSocksTarget_uses address).mono Op.opening.setup).mono setup_silent)))
  rintro (ec | remotefd) _ ⟨hcode, rfl⟩
  · obtain ⟨hguar, hrest⟩ := hfailed (hcode ec rfl)
    simp only [wlp_bind, wlp_emitConnectionEvent]
    refine ⟨trivial, hguar, fun _ => ⟨trivial, wlp_mono _ ?_
      (wlp_silent (sendError_uses (fun _ => trivial) ec))⟩⟩
    rintro _ _ rfl
    exact ⟨trivial, hrest⟩
  obtain ⟨hguar, hrest⟩ := hfailed generalFailure_ne_success
  simp only [wlp_bind, wlp_getsockname]
  refine ⟨trivial, trivial, fun r _ => ⟨trivial, ?_⟩⟩
  rcases r with e | localAddr
  · simp only [wlp_bind, wlp_emitConnectionEvent, wlp_close]
    exact ⟨trivial, hguar, fun _ => ⟨trivial, trivial, trivial, fun _ => ⟨trivial, trivial, hrest⟩⟩⟩
  simp only [wlp_bind, wlp_write]
  refine ⟨trivial, trivial, fun r _ => ⟨trivial, ?_⟩⟩
  rcases r with e | n
  · simp only [wlp_bind, wlp_emitConnectionEvent, wlp_close]
    exact ⟨trivial, hguar, fun _ => ⟨trivial, trivial, trivial, fun _ => ⟨trivial, trivial, hrest⟩⟩⟩
  · exact ⟨trivial, hfresh⟩

theorem serveRequest_reports (h : Outstanding [] [] g) (inet : Inet) (client : Client)
    (buf : Bytes) :
    wlp reportSpec (serveRequest inet client buf) (fun _ g' => Outstanding [] [] g') g := by
  have hsetup : wlp reportSpec (setupRequest inet client buf) Pending g := by
    refine (wlp_bind _).mpr (wlp_mono _ ?_
      (wlp_silent (((parseSocksRequestHeader_uses inet buf _).mono Op.lookup.setup).mono
        setup_silent)))
    rintro (ec | ⟨_ | _, address, requestedAddr⟩) _ rfl
    · exact ⟨trivial, h⟩
    · exact setupConnect_reports h client address requestedAddr
    · refine wlp_mono _ ?_ (wlp_returns (setupUdpAssociate_returns client address)
        (wlp_silent ((setupUdpAssociate_setup client address).mono setup_silent)))
      rintro (_ | ⟨fd, id, addrport⟩ | fd) _ ⟨hno, rfl⟩
      · exact h
      · exact absurd rfl (hno fd id addrport)
      · exact h
  refine (wlp_bind _).mpr (wlp_mono _ ?_ hsetup)
  rintro (_ | ⟨remotefd, id, requestedAddr⟩ | fd) g₁ h₁
  · exact ⟨trivial, h₁⟩
  · obtain ⟨hguar, hopen⟩ := Outstanding.opens
      (e := ⟨id, .tcp, .opened, requestedAddr.addr, requestedAddr.port, .success⟩) h₁ rfl
      (by simp [Matches])
    unfold runRelay emitAddrportConnectionEvent
    simp only [bind_eq, wlp_bind, wlp_emitConnectionEvent, wlp_close]
    refine ⟨trivial, hguar, fun _ => ⟨trivial, ?_⟩⟩
    refine wlp_mono _ ?_ (wlp_returns (copyloop_returns client.fd remotefd)
      (wlp_silent ((copyloop_relaying client.fd remotefd).mono relaying_silent)))
    rintro finalState _ ⟨hfinal, rfl⟩
    have hmatch : Matches finalState
        (if finalState = .error then .generalFailure else .success) := by
      by_cases hs : finalState = .error <;> simp [Matches, hs]
    obtain ⟨hguar', hrest⟩ := hopen.ends hfinal hmatch
    exact ⟨trivial, hguar', fun _ => ⟨trivial, trivial, trivial, fun _ => ⟨trivial, hrest⟩⟩⟩
  · exact (wlp_bind _).mpr (wlp_mono _ (fun _ _ h₂ => ⟨trivial, trivial, fun _ _ => ⟨trivial, h₂⟩⟩)
      (copyLoopUdp_reports inet client.fd fd h₁))

theorem handshake_silent : ∀ o : Op, o.handshake → o.silent := by
  intro o h
  cases o <;> trivial

/-- **When a thread returns it owes nothing.** -/
theorem clientthread_reports (inet : Inet) (cfg : Config) (client : Client) :
    wlp reportSpec (clientthread inet cfg client) (fun _ g => Outstanding [] [] g) ⟨[], []⟩ := by
  have hbody : ∀ {g : Reports}, Outstanding [] [] g →
      wlp reportSpec (clientthreadBody inet cfg client ())
        (fun _ g' => Outstanding [] [] g') g := by
    intro g h
    unfold clientthreadBody
    simp only [bind_eq, pure_eq, wlp_bind, wlp_recv]
    refine ⟨trivial, trivial, fun r _ => ⟨trivial, ?_⟩⟩
    rcases r with e | buf
    · exact ⟨trivial, h⟩
    dsimp only
    split
    · exact ⟨trivial, h⟩
    simp only [wlp_bind, wlp_loadState]
    refine ⟨trivial, trivial, fun s _ => ⟨trivial, ?_⟩⟩
    cases s with
    | ss1Connected =>
        exact wlp_mono _ (by rintro _ _ rfl; exact h)
          (wlp_silent ((selectMethod_handshake cfg client buf).mono handshake_silent))
    | ss2NeedAuth =>
        exact wlp_mono _ (by rintro _ _ rfl; exact h)
          (wlp_silent ((authenticate_handshake cfg client buf).mono handshake_silent))
    | ss3Authed =>
        exact (wlp_bind _).mpr (wlp_mono _ (fun _ _ h' => ⟨trivial, h'⟩)
          (serveRequest_reports h inet client buf))
  have hnone : Outstanding [] [] ⟨[], []⟩ :=
    ⟨.nil, by simp, by simp, by simp, by simp⟩
  unfold clientthread
  simp only [bind_eq, wlp_bind, wlp_storeState, wlp_close, wlp_storeDone]
  refine ⟨trivial, trivial, fun _ => ⟨trivial, ?_⟩⟩
  refine wlp_iterate (fun _ g => Outstanding [] [] g) hnone fun _ g h => ?_
  refine wlp_mono _ ?_ (hbody h)
  rintro (_ | _) g' h'
  · exact h'
  · exact ⟨trivial, trivial, fun _ => ⟨trivial, trivial, trivial, fun _ => ⟨trivial, h'⟩⟩⟩

end Request

/-! ### All threads -/

/-- The identifiers in a trace. -/
def identifiers (tr : Trace sys) : List Int :=
  tr.filterMap fun e => match e with
    | ⟨.nextConnectionIdentifier, id⟩ => some id
    | _ => none

theorem reports_issued {tr : Trace sys} : ∀ {g : Reports},
    (reportSpec.run g tr).issued = g.issued ++ identifiers tr := by
  induction tr with
  | nil => intro g; simp [identifiers]
  | cons e tr ih =>
      obtain ⟨o, r⟩ := e
      intro g
      rw [Spec.run_cons, ih]
      cases o with
      | nextConnectionIdentifier => simp [reportSpec, identifiers]
      | _ => rfl

/-- A thread as its reports show it. -/
abbrev Reporter := Pool.View Client ThreadMem Reports

/-- The handler has been called with what the threads reported, and no two of them share
an identifier. -/
structure Reported (w : Shared) (vs : List Reporter) : Prop where
  below : ∀ v ∈ vs, ∀ id ∈ v.2.2.issued, id < w.nextConnectionIdentifierValue
  distinct : (vs.flatMap fun v => v.2.2.issued).Nodup
  logged : ∀ v ∈ vs, ∀ e ∈ v.2.2.log, e.identifier ∈ v.2.2.issued
  lawful : ∀ v ∈ vs, ∀ id ∈ v.2.2.issued, Lawful (eventsOf v.2.2.log id)
  own : ∀ v ∈ vs, ∀ id ∈ v.2.2.issued, eventsOf w.events id = eventsOf v.2.2.log id
  owned : ∀ e ∈ w.events, ∃ v ∈ vs, e.identifier ∈ v.2.2.issued

section Reported

variable {w w' : Shared} {pre post : List Reporter} {i : Client} {m m' : ThreadMem} {g : Reports}

/-- The threads in another order. -/
theorem Reported.perm {vs vs' : List Reporter} (h : Reported w vs) (hp : vs.Perm vs') :
    Reported w vs' where
  below v hv := h.below v (hp.mem_iff.mpr hv)
  distinct := (hp.flatMap_right _).nodup_iff.mp h.distinct
  logged v hv := h.logged v (hp.mem_iff.mpr hv)
  lawful v hv := h.lawful v (hp.mem_iff.mpr hv)
  own v hv := h.own v (hp.mem_iff.mpr hv)
  owned e he := by
    obtain ⟨v, hv, hid⟩ := h.owned e he
    exact ⟨v, hp.mem_iff.mp hv, hid⟩

/-- An identifier not handed out yet has no events. -/
theorem Reported.unheard {vs : List Reporter} {v : Reporter} (h : Reported w vs) (hv : v ∈ vs)
    {id : Int} (hid : id = w.nextConnectionIdentifierValue) : eventsOf v.2.2.log id = [] := by
  refine eventsOf_eq_nil fun e he heq => ?_
  have := h.below v hv _ (h.logged v hv e he)
  omega

/-- Something happens that is not reported. -/
theorem Reported.change {vs : List Reporter} (h : Reported w ((i, m, g) :: vs))
    (hnext : w'.nextConnectionIdentifierValue = w.nextConnectionIdentifierValue)
    (hevents : w'.events = w.events) : Reported w' ((i, m', g) :: vs) := by
  have hmem : ∀ {v}, v ∈ (i, m', g) :: vs → ∃ v' ∈ (i, m, g) :: vs, v'.2.2 = v.2.2 := by
    intro v hv
    rcases List.mem_cons.mp hv with rfl | hv
    · exact ⟨_, List.mem_cons_self, rfl⟩
    · exact ⟨v, List.mem_cons_of_mem _ hv, rfl⟩
  refine ⟨fun v hv id hid => ?_, h.distinct, fun v hv => ?_, fun v hv => ?_, fun v hv id hid => ?_,
    fun e he => ?_⟩
  · obtain ⟨v', hv', heq⟩ := hmem hv
    rw [hnext]
    exact h.below v' hv' id (heq ▸ hid)
  · obtain ⟨v', hv', heq⟩ := hmem hv
    exact heq ▸ h.logged v' hv'
  · obtain ⟨v', hv', heq⟩ := hmem hv
    exact heq ▸ h.lawful v' hv'
  · obtain ⟨v', hv', heq⟩ := hmem hv
    rw [hevents, ← heq]
    exact h.own v' hv' id (heq ▸ hid)
  · obtain ⟨v, hv, hid⟩ := h.owned e (hevents ▸ he)
    rcases List.mem_cons.mp hv with rfl | hv
    · exact ⟨_, List.mem_cons_self, hid⟩
    · exact ⟨v, List.mem_cons_of_mem _ hv, hid⟩

/-- The counter hands out an identifier nobody has. -/
theorem Reported.hand {vs : List Reporter} (h : Reported w ((i, m, g) :: vs)) :
    Reported { w with nextConnectionIdentifierValue := w.nextConnectionIdentifierValue + 1 }
      ((i, m, reportSpec.next g .nextConnectionIdentifier w.nextConnectionIdentifierValue) ::
        vs) where
  below v hv id hid := by
    show id < w.nextConnectionIdentifierValue + 1
    rcases List.mem_cons.mp hv with rfl | hv
    · rcases List.mem_append.mp hid with hid | hid
      · have := h.below _ List.mem_cons_self id hid
        omega
      · rw [List.mem_singleton.mp hid]
        omega
    · have := h.below v (List.mem_cons_of_mem _ hv) id hid
      omega
  distinct := by
    have hperm : ((g.issued ++ [w.nextConnectionIdentifierValue]) ++
        vs.flatMap fun v => v.2.2.issued).Perm (w.nextConnectionIdentifierValue ::
          (g.issued ++ vs.flatMap fun v => v.2.2.issued)) := by
      rw [List.append_assoc]
      exact List.perm_middle
    refine hperm.nodup_iff.mpr (List.nodup_cons.mpr ⟨fun hin => ?_, h.distinct⟩)
    obtain ⟨v, hv, hid⟩ := List.mem_flatMap.mp
      (show _ ∈ ((i, m, g) :: vs).flatMap fun v => v.2.2.issued from hin)
    exact lt_irrefl _ (h.below v hv _ hid)
  logged v hv e he := by
    rcases List.mem_cons.mp hv with rfl | hv
    · exact List.mem_append_left _ (h.logged _ List.mem_cons_self e he)
    · exact h.logged v (List.mem_cons_of_mem _ hv) e he
  lawful v hv id hid := by
    rcases List.mem_cons.mp hv with rfl | hv
    · rcases List.mem_append.mp hid with hid | hid
      · exact h.lawful _ List.mem_cons_self id hid
      · show Lawful (eventsOf g.log id)
        rw [h.unheard List.mem_cons_self (List.mem_singleton.mp hid)]
        exact lawful_nil
    · exact h.lawful v (List.mem_cons_of_mem _ hv) id hid
  own v hv id hid := by
    rcases List.mem_cons.mp hv with rfl | hv
    · rcases List.mem_append.mp hid with hid | hid
      · exact h.own _ List.mem_cons_self id hid
      · refine Eq.trans ?_ (h.unheard List.mem_cons_self (List.mem_singleton.mp hid)).symm
        refine eventsOf_eq_nil fun e he heq => ?_
        obtain ⟨v, hv, hid'⟩ := h.owned e he
        have := h.below v hv _ hid'
        rw [heq, List.mem_singleton.mp hid] at this
        exact lt_irrefl _ this
    · exact h.own v (List.mem_cons_of_mem _ hv) id hid
  owned e he := by
    obtain ⟨v, hv, hid⟩ := h.owned e he
    rcases List.mem_cons.mp hv with rfl | hv
    · exact ⟨_, List.mem_cons_self, List.mem_append_left _ hid⟩
    · exact ⟨v, List.mem_cons_of_mem _ hv, hid⟩

/-- A thread reports something about a connection of its own. -/
theorem Reported.emit {vs : List Reporter} (h : Reported w ((i, m, g) :: vs)) {e : ConnectionEvent}
    (hguar : reportSpec.guar g (.handler e)) :
    Reported { w with events := w.events ++ [e] }
      ((i, m, reportSpec.next g (.handler e) ()) :: vs) where
  below v hv := by
    rcases List.mem_cons.mp hv with rfl | hv
    · exact h.below (i, m, g) List.mem_cons_self
    · exact h.below v (List.mem_cons_of_mem _ hv)
  distinct := h.distinct
  logged v hv e' he' := by
    rcases List.mem_cons.mp hv with rfl | hv
    · rcases List.mem_append.mp he' with he' | he'
      · exact h.logged _ List.mem_cons_self e' he'
      · rw [List.mem_singleton.mp he']
        exact hguar.1
    · exact h.logged v (List.mem_cons_of_mem _ hv) e' he'
  lawful v hv id hid := by
    rcases List.mem_cons.mp hv with rfl | hv
    · show Lawful (eventsOf (g.log ++ [e]) id)
      by_cases heq : id = e.identifier
      · rw [heq, eventsOf_append]
        exact hguar.2
      · rw [eventsOf_append_ne heq]
        exact h.lawful _ List.mem_cons_self id hid
    · exact h.lawful v (List.mem_cons_of_mem _ hv) id hid
  own v hv id hid := by
    show eventsOf (w.events ++ [e]) id = _
    rcases List.mem_cons.mp hv with rfl | hv
    · have hown := h.own _ List.mem_cons_self id hid
      show _ = eventsOf (g.log ++ [e]) id
      by_cases heq : id = e.identifier
      · subst heq
        rw [eventsOf_append, eventsOf_append, hown]
      · rw [eventsOf_append_ne heq, eventsOf_append_ne heq, hown]
    · have hne : id ≠ e.identifier := by
        rintro rfl
        exact (List.nodup_append.mp h.distinct).2.2 _ hguar.1 _
          (List.mem_flatMap.mpr ⟨v, hv, hid⟩) rfl
      rw [eventsOf_append_ne hne]
      exact h.own v (List.mem_cons_of_mem _ hv) id hid
  owned e' he' := by
    rcases List.mem_append.mp he' with he' | he'
    · obtain ⟨v, hv, hid⟩ := h.owned e' he'
      rcases List.mem_cons.mp hv with rfl | hv
      · exact ⟨_, List.mem_cons_self, hid⟩
      · exact ⟨v, List.mem_cons_of_mem _ hv, hid⟩
    · rw [List.mem_singleton.mp he']
      exact ⟨_, List.mem_cons_self, hguar.1⟩

/-- A thread that starts has reported nothing. -/
theorem Reported.start {vs : List Reporter} (h : Reported w vs) :
    Reported w ((i, m, ⟨[], []⟩) :: vs) where
  below v hv := by
    rcases List.mem_cons.mp hv with rfl | hv
    · exact nofun
    · exact h.below v hv
  distinct := h.distinct
  logged v hv := by
    rcases List.mem_cons.mp hv with rfl | hv
    · exact nofun
    · exact h.logged v hv
  lawful v hv := by
    rcases List.mem_cons.mp hv with rfl | hv
    · exact nofun
    · exact h.lawful v hv
  own v hv := by
    rcases List.mem_cons.mp hv with rfl | hv
    · exact nofun
    · exact h.own v hv
  owned e he := by
    obtain ⟨v, hv, hid⟩ := h.owned e he
    exact ⟨v, List.mem_cons_of_mem _ hv, hid⟩

end Reported

/-- Every event a thread may perform keeps the relation. -/
theorem reported_keeps (inet : Inet) (cfg : Config) :
    Pool.Keeps (machine anyAnswer) (accepted inet cfg) (fun _ => reportSpec) (fun _ => ⟨[], []⟩)
      Reported where
  start w vs i h := by
    exact h.start.perm (List.perm_append_singleton _ _).symm
  rely w pre post i m g o r _ h hcan := by
    have h := h.perm List.perm_middle
    cases o with
    | nextConnectionIdentifier =>
        obtain rfl : r = w.nextConnectionIdentifierValue := hcan
        exact fun hid => lt_irrefl _ (h.below _ List.mem_cons_self _ hid)
    | _ => trivial
  event w pre post i m g o r _ h hcan hguar := by
    have h := h.perm List.perm_middle
    refine Reported.perm ?_ List.perm_middle.symm
    cases o with
    | nextConnectionIdentifier =>
        obtain rfl : r = w.nextConnectionIdentifierValue := hcan
        exact h.hand
    | handler e => exact h.emit hguar
    | socket af type => rcases r with e | fd <;> exact h.change rfl rfl
    | _ => exact h.change rfl rfl

/-! ### The process -/

/-- What the handler sees, in any state of the process. -/
structure EventLifecycle (c : Pool sys Client Shared ThreadMem) : Prop where
  /-- No identifier is handed out twice. -/
  distinct : (c.threads.flatMap fun t => identifiers t.trace).Nodup
  /-- The events of an identifier are the beginning of one connection's history. -/
  lawful : ∀ id, Lawful (eventsOf c.world.events id)
  /-- There are no events of an identifier that was not handed out. -/
  owned : ∀ e ∈ c.world.events, ∃ t ∈ c.threads, e.identifier ∈ identifiers t.trace
  /-- A thread that has returned has reported all its connections to the end. -/
  complete : ∀ t ∈ c.threads, t.prog = .ret () → ∀ id ∈ identifiers t.trace,
    Complete (eventsOf c.world.events id)

/-- **Every connection is reported from its beginning to its end, once.** -/
theorem events_lifecycle {inet : Inet} {cfg : Config} {whole : Block → Prop}
    {c : Pool sys Client Shared ThreadMem} (hc : Process anyAnswer inet cfg whole c) :
    EventLifecycle c := by
  obtain ⟨hr, hb⟩ := Pool.Reachable.invariant (reported_keeps inet cfg)
    (Q := fun _ g => Outstanding [] [] g)
    ⟨nofun, .nil, nofun, nofun, nofun, by simp [Shared.initial]⟩
    (fun _ _ _ _ _ => trivial) (clientthread_reports inet cfg) hc
  have hissued : ∀ t ∈ c.threads, (reportSpec.run ⟨[], []⟩ t.trace).issued = identifiers t.trace :=
    fun t _ => reports_issued
  have hview : ∀ t ∈ c.threads, (t.id, t.mem, reportSpec.run ⟨[], []⟩ t.trace) ∈
      c.threads.map (Pool.Thread.view (fun _ => reportSpec) fun _ => ⟨[], []⟩) :=
    fun t ht => List.mem_map.mpr ⟨t, ht, rfl⟩
  refine ⟨?_, fun id => ?_, fun e he => ?_, fun t ht hret id hid => ?_⟩
  · have hdistinct := hr.distinct
    rw [List.flatMap_map] at hdistinct
    rwa [List.flatMap_congr fun t ht => (hissued t ht).symm]
  · by_cases hid : ∃ e ∈ c.world.events, e.identifier = id
    · obtain ⟨e, he, rfl⟩ := hid
      obtain ⟨v, hv, hid⟩ := hr.owned e he
      rw [hr.own v hv _ hid]
      exact hr.lawful v hv _ hid
    · rw [eventsOf_eq_nil fun e he heq => hid ⟨e, he, heq⟩]
      exact lawful_nil
  · obtain ⟨v, hv, hid⟩ := hr.owned e he
    obtain ⟨t, ht, rfl⟩ := List.mem_map.mp hv
    exact ⟨t, ht, hissued t ht ▸ hid⟩
  · have hid' := (hissued t ht).symm ▸ hid
    rw [hr.own _ (hview t ht) id hid']
    exact ((hb t ht).returned hret).done id hid' (by simp)

/-- The client connects to `webTarget`, which has nothing to say until the relay gives up. -/
def relayedTrace : Trace sys :=
  [⟨.storeState .ss1Connected, ()⟩,
    ⟨.recv 4 1024, .ok [5, 1, 0]⟩, ⟨.loadState, .ss1Connected⟩, ⟨.storeState .ss3Authed, ()⟩,
    ⟨.write 4 [5, 0], .ok 2⟩,
    ⟨.recv 4 1024, .ok [5, 1, 0, 1, 192, 0, 2, 1, 0, 80]⟩, ⟨.loadState, .ss3Authed⟩,
    ⟨.getaddrinfo webTarget.addr 80 .stream, some (.v4 (hostAddress 1) 80)⟩,
    ⟨.nextConnectionIdentifier, (1 : Int)⟩,
    ⟨.socket .inet .stream, .ok 7⟩, ⟨.connect 7 (.v4 (hostAddress 1) 80), .ok ()⟩,
    ⟨.getsockname 7, .ok (.v4 (hostAddress 9) 50000)⟩,
    ⟨.write 4 [5, 0, 0, 1, 192, 0, 2, 9, 195, 80], .ok 10⟩,
    ⟨.handler ⟨1, .tcp, .opened, webTarget.addr, 80, .success⟩, ()⟩,
    ⟨.storePending .downloaded 0, ()⟩, ⟨.storePending .uploaded 0, ()⟩,
    ⟨.poll [(4, POLLIN), (7, POLLIN)] IDLE_TIMEOUT, .timeout⟩,
    ⟨.loadPending .downloaded, (0 : Nat)⟩, ⟨.loadPending .uploaded, (0 : Nat)⟩,
    ⟨.handler ⟨1, .tcp, .closed, webTarget.addr, 80, .success⟩, ()⟩,
    ⟨.close 7, ()⟩, ⟨.close 4, ()⟩, ⟨.storeDone, ()⟩]

/-- A connection that is opened and closed. -/
theorem events_lifecycle_connect : ∃ c, (c.world.events.map (·.state)) = [.opened, .closed] ∧
    Process anyAnswer Inet.plain ⟨none, none, false⟩ allWhole c ∧ EventLifecycle c := by
  have hc : Process anyAnswer Inet.plain ⟨none, none, false⟩ allWhole
      ⟨_, [⟨webClient, _, _, _⟩]⟩ :=
    Pool.Reachable.session webClient .init
      (eval_of_replay 60 relayedTrace rfl) (by repeat constructor)
  exact ⟨_, rfl, hc, events_lifecycle hc⟩

end TwoSocks
