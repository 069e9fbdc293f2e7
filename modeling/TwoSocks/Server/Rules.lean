/-
Preconditions of the server's operations.

One rule for each operation the server can ask for, all of the same shape: the
operation must be allowed, and the postcondition must hold for every answer the spec
relies on.  They are what `simp` unfolds a program's precondition with.  The rules for
the small programs every part of the server uses come after them.
-/
import TwoSocks.Server.Process

namespace TwoSocks

open Server Prog

section Operations

variable {G : Type} {P : Spec sys G} {g : G}

@[simp] theorem wlp_poll (fds : List (Fd × UInt16)) (timeout : Nat) {Q : PollResult → G → Prop} :
    wlp P (poll fds timeout) Q g ↔
      P.inv g ∧ P.guar g (.poll fds timeout) ∧ ∀ r : PollResult, P.rely g (.poll fds timeout) r →
      P.inv (P.next g (.poll fds timeout) r) ∧ Q r (P.next g (.poll fds timeout) r) := Iff.rfl

@[simp] theorem wlp_recv (fd : Fd) (len : Nat) {Q : Except Errno Bytes → G → Prop} :
    wlp P (recv fd len) Q g ↔
      P.inv g ∧ P.guar g (.recv fd len) ∧ ∀ r : Except Errno Bytes, P.rely g (.recv fd len) r →
      P.inv (P.next g (.recv fd len) r) ∧ Q r (P.next g (.recv fd len) r) := Iff.rfl

@[simp] theorem wlp_recvfrom (fd : Fd) (len : Nat)
    {Q : Except Errno (Bytes × SockaddrUnion) → G → Prop} :
    wlp P (recvfrom fd len) Q g ↔
      P.inv g ∧ P.guar g (.recvfrom fd len) ∧
      ∀ r : Except Errno (Bytes × SockaddrUnion), P.rely g (.recvfrom fd len) r →
      P.inv (P.next g (.recvfrom fd len) r) ∧ Q r (P.next g (.recvfrom fd len) r) := Iff.rfl

@[simp] theorem wlp_read (fd : Fd) (len : Nat) {Q : Except Errno Bytes → G → Prop} :
    wlp P (read fd len) Q g ↔
      P.inv g ∧ P.guar g (.read fd len) ∧ ∀ r : Except Errno Bytes, P.rely g (.read fd len) r →
      P.inv (P.next g (.read fd len) r) ∧ Q r (P.next g (.read fd len) r) := Iff.rfl

@[simp] theorem wlp_write (fd : Fd) (buf : Bytes) {Q : Except Errno Nat → G → Prop} :
    wlp P (write fd buf) Q g ↔
      P.inv g ∧ P.guar g (.write fd buf) ∧ ∀ r : Except Errno Nat, P.rely g (.write fd buf) r →
      P.inv (P.next g (.write fd buf) r) ∧ Q r (P.next g (.write fd buf) r) := Iff.rfl

@[simp] theorem wlp_send (fd : Fd) (buf : Bytes) {Q : Except Errno Nat → G → Prop} :
    wlp P (send fd buf) Q g ↔
      P.inv g ∧ P.guar g (.send fd buf) ∧ ∀ r : Except Errno Nat, P.rely g (.send fd buf) r →
      P.inv (P.next g (.send fd buf) r) ∧ Q r (P.next g (.send fd buf) r) := Iff.rfl

@[simp] theorem wlp_socket (af : Af) (type : SockType) {Q : Except Errno Fd → G → Prop} :
    wlp P (socket af type) Q g ↔
      P.inv g ∧ P.guar g (.socket af type) ∧ ∀ r : Except Errno Fd, P.rely g (.socket af type) r →
      P.inv (P.next g (.socket af type) r) ∧ Q r (P.next g (.socket af type) r) := Iff.rfl

@[simp] theorem wlp_connect (fd : Fd) (addr : SockaddrUnion) {Q : Except Errno Unit → G → Prop} :
    wlp P (connect fd addr) Q g ↔
      P.inv g ∧ P.guar g (.connect fd addr) ∧
      ∀ r : Except Errno Unit, P.rely g (.connect fd addr) r →
      P.inv (P.next g (.connect fd addr) r) ∧ Q r (P.next g (.connect fd addr) r) := Iff.rfl

@[simp] theorem wlp_bindCall (fd : Fd) (addr : SockaddrUnion) {Q : Except Errno Unit → G → Prop} :
    wlp P (bind fd addr) Q g ↔
      P.inv g ∧ P.guar g (.bind fd addr) ∧ ∀ r : Except Errno Unit, P.rely g (.bind fd addr) r →
      P.inv (P.next g (.bind fd addr) r) ∧ Q r (P.next g (.bind fd addr) r) := Iff.rfl

@[simp] theorem wlp_close (fd : Fd) {Q : Unit → G → Prop} :
    wlp P (close fd) Q g ↔ P.inv g ∧ P.guar g (.close fd) ∧ (P.rely g (.close fd) () →
      P.inv (P.next g (.close fd) ()) ∧ Q () (P.next g (.close fd) ())) :=
  ⟨fun h => ⟨h.1, h.2.1, h.2.2 ()⟩, fun h => ⟨h.1, h.2.1, fun () => h.2.2⟩⟩

@[simp] theorem wlp_getsockname (fd : Fd) {Q : Except Errno SockaddrUnion → G → Prop} :
    wlp P (getsockname fd) Q g ↔
      P.inv g ∧ P.guar g (.getsockname fd) ∧
      ∀ r : Except Errno SockaddrUnion, P.rely g (.getsockname fd) r →
      P.inv (P.next g (.getsockname fd) r) ∧ Q r (P.next g (.getsockname fd) r) := Iff.rfl

@[simp] theorem wlp_getpeername (fd : Fd) {Q : Except Errno SockaddrUnion → G → Prop} :
    wlp P (getpeername fd) Q g ↔
      P.inv g ∧ P.guar g (.getpeername fd) ∧
      ∀ r : Except Errno SockaddrUnion, P.rely g (.getpeername fd) r →
      P.inv (P.next g (.getpeername fd) r) ∧ Q r (P.next g (.getpeername fd) r) := Iff.rfl

@[simp] theorem wlp_getaddrinfo (host : CString) (port : UInt16) (type : SockType)
    {Q : Option SockaddrUnion → G → Prop} :
    wlp P (getaddrinfo host port type) Q g ↔
      P.inv g ∧ P.guar g (.getaddrinfo host port type) ∧
      ∀ r : Option SockaddrUnion, P.rely g (.getaddrinfo host port type) r →
      P.inv (P.next g (.getaddrinfo host port type) r) ∧
        Q r (P.next g (.getaddrinfo host port type) r) := Iff.rfl

@[simp] theorem wlp_getaddrinfoPassive (af : Af) {Q : Option SockaddrUnion → G → Prop} :
    wlp P (getaddrinfoPassive af) Q g ↔
      P.inv g ∧ P.guar g (.getaddrinfoPassive af) ∧
      ∀ r : Option SockaddrUnion, P.rely g (.getaddrinfoPassive af) r →
      P.inv (P.next g (.getaddrinfoPassive af) r) ∧
        Q r (P.next g (.getaddrinfoPassive af) r) := Iff.rfl

@[simp] theorem wlp_malloc (size : Nat) {Q : Bool → G → Prop} :
    wlp P (malloc size) Q g ↔
      P.inv g ∧ P.guar g (.malloc size) ∧ ∀ r : Bool, P.rely g (.malloc size) r →
      P.inv (P.next g (.malloc size) r) ∧ Q r (P.next g (.malloc size) r) := Iff.rfl

@[simp] theorem wlp_realloc (items : Nat) {Q : Bool → G → Prop} :
    wlp P (realloc items) Q g ↔
      P.inv g ∧ P.guar g (.realloc items) ∧ ∀ r : Bool, P.rely g (.realloc items) r →
      P.inv (P.next g (.realloc items) r) ∧ Q r (P.next g (.realloc items) r) := Iff.rfl

@[simp] theorem wlp_perror {Q : Errno → G → Prop} :
    wlp P perror Q g ↔ P.inv g ∧ P.guar g .perror ∧ ∀ r : Errno, P.rely g .perror r →
      P.inv (P.next g .perror r) ∧ Q r (P.next g .perror r) := Iff.rfl

@[simp] theorem wlp_nextConnectionIdentifier {Q : Int → G → Prop} :
    wlp P nextConnectionIdentifier Q g ↔
      P.inv g ∧ P.guar g .nextConnectionIdentifier ∧
      ∀ r : Int, P.rely g .nextConnectionIdentifier r →
      P.inv (P.next g .nextConnectionIdentifier r) ∧
        Q r (P.next g .nextConnectionIdentifier r) := Iff.rfl

@[simp] theorem wlp_rdlock {Q : Bool → G → Prop} :
    wlp P rdlock Q g ↔ P.inv g ∧ P.guar g .rdlock ∧ ∀ r : Bool, P.rely g .rdlock r →
      P.inv (P.next g .rdlock r) ∧ Q r (P.next g .rdlock r) := Iff.rfl

@[simp] theorem wlp_wrlock {Q : Bool → G → Prop} :
    wlp P wrlock Q g ↔ P.inv g ∧ P.guar g .wrlock ∧ ∀ r : Bool, P.rely g .wrlock r →
      P.inv (P.next g .wrlock r) ∧ Q r (P.next g .wrlock r) := Iff.rfl

@[simp] theorem wlp_unlock {Q : Unit → G → Prop} :
    wlp P unlock Q g ↔ P.inv g ∧ P.guar g .unlock ∧ (P.rely g .unlock () →
      P.inv (P.next g .unlock ()) ∧ Q () (P.next g .unlock ())) :=
  ⟨fun h => ⟨h.1, h.2.1, h.2.2 ()⟩, fun h => ⟨h.1, h.2.1, fun () => h.2.2⟩⟩

@[simp] theorem wlp_loadAuthIps {Q : Sblist SockaddrUnion → G → Prop} :
    wlp P loadAuthIps Q g ↔
      P.inv g ∧ P.guar g .loadAuthIps ∧ ∀ r : Sblist SockaddrUnion, P.rely g .loadAuthIps r →
      P.inv (P.next g .loadAuthIps r) ∧ Q r (P.next g .loadAuthIps r) := Iff.rfl

@[simp] theorem wlp_storeAuthIps (l : Sblist SockaddrUnion) {Q : Unit → G → Prop} :
    wlp P (storeAuthIps l) Q g ↔
      P.inv g ∧ P.guar g (.storeAuthIps l) ∧ (P.rely g (.storeAuthIps l) () →
      P.inv (P.next g (.storeAuthIps l) ()) ∧ Q () (P.next g (.storeAuthIps l) ())) :=
  ⟨fun h => ⟨h.1, h.2.1, h.2.2 ()⟩, fun h => ⟨h.1, h.2.1, fun () => h.2.2⟩⟩

@[simp] theorem wlp_loadState {Q : Socksstate → G → Prop} :
    wlp P loadState Q g ↔ P.inv g ∧ P.guar g .loadState ∧ ∀ r : Socksstate, P.rely g .loadState r →
      P.inv (P.next g .loadState r) ∧ Q r (P.next g .loadState r) := Iff.rfl

@[simp] theorem wlp_storeState (s : Socksstate) {Q : Unit → G → Prop} :
    wlp P (storeState s) Q g ↔ P.inv g ∧ P.guar g (.storeState s) ∧ (P.rely g (.storeState s) () →
      P.inv (P.next g (.storeState s) ()) ∧ Q () (P.next g (.storeState s) ())) :=
  ⟨fun h => ⟨h.1, h.2.1, h.2.2 ()⟩, fun h => ⟨h.1, h.2.1, fun () => h.2.2⟩⟩

@[simp] theorem wlp_storeDone {Q : Unit → G → Prop} :
    wlp P storeDone Q g ↔ P.inv g ∧ P.guar g .storeDone ∧ (P.rely g .storeDone () →
      P.inv (P.next g .storeDone ()) ∧ Q () (P.next g .storeDone ())) :=
  ⟨fun h => ⟨h.1, h.2.1, h.2.2 ()⟩, fun h => ⟨h.1, h.2.1, fun () => h.2.2⟩⟩

@[simp] theorem wlp_loadPending (d : Direction) {Q : Nat → G → Prop} :
    wlp P (loadPending d) Q g ↔
      P.inv g ∧ P.guar g (.loadPending d) ∧ ∀ r : Nat, P.rely g (.loadPending d) r →
      P.inv (P.next g (.loadPending d) r) ∧ Q r (P.next g (.loadPending d) r) := Iff.rfl

@[simp] theorem wlp_storePending (d : Direction) (count : Nat) {Q : Unit → G → Prop} :
    wlp P (storePending d count) Q g ↔
      P.inv g ∧ P.guar g (.storePending d count) ∧ (P.rely g (.storePending d count) () →
      P.inv (P.next g (.storePending d count) ()) ∧ Q () (P.next g (.storePending d count) ())) :=
  ⟨fun h => ⟨h.1, h.2.1, h.2.2 ()⟩, fun h => ⟨h.1, h.2.1, fun () => h.2.2⟩⟩

@[simp] theorem wlp_abort {α : Type} {Q : α → G → Prop} :
    wlp P abort Q g ↔ P.inv g ∧ P.guar g .abort :=
  ⟨fun h => ⟨h.1, h.2.1⟩, fun h => ⟨h.1, h.2, fun r => nomatch r⟩⟩

@[simp] theorem wlp_emitConnectionEvent (e : ConnectionEvent) {Q : Unit → G → Prop} :
    wlp P (emitConnectionEvent e) Q g ↔ P.inv g ∧ P.guar g (.handler e) ∧
      (P.rely g (.handler e) () → P.inv (P.next g (.handler e) ()) ∧
        Q () (P.next g (.handler e) ())) :=
  ⟨fun h => ⟨h.1, h.2.1, h.2.2 ()⟩, fun h => ⟨h.1, h.2.1, fun () => h.2.2⟩⟩

/-- Nothing is added to a total for nothing. -/
theorem wlp_recordBytes (d : Direction) (n : Nat) {Q : Unit → G → Prop} (hinv : P.inv g)
    (hnone : n = 0 → Q () g) (hguar : P.guar g (.fetchAdd d n))
    (hsome : P.inv (P.next g (.fetchAdd d n) ()) ∧ Q () (P.next g (.fetchAdd d n) ())) :
    wlp P (recordBytes d n) Q g := by
  unfold recordBytes
  split
  · rename_i hn
    exact ⟨hinv, hnone hn⟩
  · exact ⟨hinv, hguar, fun _ _ => hsome⟩

/-- `sblist_add` asks for memory at most once, and appends the item unless that fails. -/
theorem wlp_sblistAdd {α : Type} (l : Sblist α) (item : α)
    {Q : Option (Sblist α) → G → Prop} (hinv : P.inv g) (hguar : ∀ n, P.guar g (.realloc n))
    (hnext : ∀ n r, P.inv (P.next g (.realloc n) r))
    (hplain : ∀ l' : Sblist α, l'.items = l.items ++ [item] → Q (some l') g)
    (hfull : ∀ n, Q none (P.next g (.realloc n) false))
    (hgrown : ∀ n (l' : Sblist α), l'.items = l.items ++ [item] →
      Q (some l') (P.next g (.realloc n) true)) : wlp P (sblistAdd l item) Q g := by
  unfold sblistAdd sblistGrowIfNeeded
  simp only [bind_eq, pure_eq, wlp_bind]
  split
  · simp only [wlp_bind, wlp_realloc]
    refine ⟨hinv, hguar _, fun r _ => ⟨hnext _ _, ?_⟩⟩
    cases r with
    | false => exact ⟨hnext _ _, hnext _ _, hfull _⟩
    | true => exact ⟨hnext _ _, hnext _ _, hgrown _ _ rfl⟩
  · exact ⟨hinv, hinv, hplain _ rfl⟩

end Operations

end TwoSocks
