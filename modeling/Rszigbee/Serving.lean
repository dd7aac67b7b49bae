import Mathlib.Logic.Relation
import Rszigbee.Channels
import Rszigbee.Dialogue

/-! One owner of a peer that answers one command at a time, and any number of callers.
A caller is a dialogue. It puts each of its commands into a bounded channel and waits for the
answer; the owner takes them out, puts them to the peer, and forwards what the peer has raised on
its own account to a listener over a second bounded channel. -/
namespace Rszigbee

namespace Dialogue

variable {C C' : Type} {R : C → Type} {R' : C' → Type} {ε α : Type}

/-- What is left of a dialogue once some commands have been answered. -/
inductive Follows (d : Dialogue C R ε α) : List (Σ c, R c) → Dialogue C R ε α → Prop
  | refl : Follows d [] d
  | snoc {heard c next} (r : R c) : Follows d heard (ask c next) →
      Follows d (heard ++ [⟨c,r⟩]) (next r)

/-- Answers a peer would have given lead where that peer leads. -/
theorem Follows.result {d p : Dialogue C R ε α} {heard : List (Σ c, R c)} (h : d.Follows heard p)
    {peer : (c : C) → R c} (hpeer : ∀ x ∈ heard, x.2 = peer x.1) :
    d.result peer = p.result peer ∧ d.issued peer = heard.map Sigma.fst ++ p.issued peer := by
  induction h with
  | refl => exact ⟨rfl,rfl⟩
  | @snoc heard c next r _ ih =>
    have hbefore (x : Σ c, R c) (hx : x ∈ heard) : x.2 = peer x.1 :=
      hpeer x (List.mem_append_left _ hx)
    have hr : r = peer c := hpeer ⟨c,r⟩ (by simp)
    obtain ⟨hresult,hissued⟩ := ih hbefore
    refine ⟨by rw [hresult,hr]; rfl,?_⟩
    rw [hissued,hr]
    simp [issued]

/-- Nothing follows a dialogue that is over. -/
theorem Follows.of_done {r : Except ε α} {heard : List (Σ c, R c)} {p : Dialogue C R ε α}
    (h : Follows (done r) heard p) : heard = [] ∧ p = done r := by
  induction h with
  | refl => exact ⟨rfl,rfl⟩
  | snoc _ _ ih => exact absurd ih.2 nofun

/-- A dialogue at a command either is still there or has heard its answer. -/
theorem Follows.of_ask {c : C} {next : R c → Dialogue C R ε α} {heard : List (Σ c, R c)}
    {p : Dialogue C R ε α} (h : Follows (ask c next) heard p) :
    heard = [] ∧ p = ask c next ∨
      ∃ r rest, heard = ⟨c,r⟩::rest ∧ Follows (next r) rest p := by
  induction h with
  | refl => exact .inl ⟨rfl,rfl⟩
  | @snoc heard d onward r _ ih =>
    rcases ih with ⟨rfl,hask⟩ | ⟨first,rest,rfl,hrest⟩
    · cases hask
      exact .inr ⟨r,[],rfl,.refl⟩
    · exact .inr ⟨first,rest ++ [⟨d,r⟩],rfl,.snoc r hrest⟩

/-- The same dialogue over a larger set of commands. -/
def lift (f : C → C') (g : (c : C) → R' (f c) → R c) : Dialogue C R ε α → Dialogue C' R' ε α
  | done r => done r
  | ask c next => ask (f c) fun r => (next (g c r)).lift f g

/-- The dialogue is over. -/
def Over : Dialogue C R ε α → Prop
  | done _ => True
  | ask _ _ => False

end Dialogue

namespace Serving

variable {Q : Type} {R : Q → Type} {N ε α : Type} {depth : ℕ}

/-- A caller: its method, what is left of it, and what it was told so far. -/
structure Caller (Q : Type) (R : Q → Type) (ε α : Type) where
  method : Dialogue Q R ε α
  program : Dialogue Q R ε α := method
  /-- Its command is in the channel, or with the peer. -/
  queued : Bool := false
  /-- Nobody waits for it any more. -/
  gone : Bool := false
  heard : List (Σ q, R q) := []

namespace Caller

/-- Neither finished nor given up. -/
def Busy (c : Caller Q R ε α) : Prop := c.gone = false ∧ ¬ c.program.Over

/-- An answer to the command it is at, and what it goes on with. -/
def hear (c : Caller Q R ε α) (q : Q) (r : R q) (next : Dialogue Q R ε α) : Caller Q R ε α :=
  { c with program := next, queued := false, heard := c.heard ++ [⟨q,r⟩] }

end Caller

/-- What the owner is doing. -/
inductive Owner (Q N : Type)
  | running (caller : ℕ) (q : Q)
  | polling
  | handing (batch : List N)
  | stopped

/-- The commands the owner has taken out and not had answered. -/
def Owner.current : Owner Q N → List (ℕ × Q)
  | running i q => [(i,q)]
  | _ => []

/-- What the owner has been told and has not forwarded. -/
def Owner.batch : Owner Q N → List N
  | handing batch => batch
  | _ => []

structure State (Q : Type) (R : Q → Type) (N ε α : Type) (depth : ℕ) where
  callers : List (Caller Q R ε α)
  requests : Channel (ℕ × Q) depth
  owner : Owner Q N
  notices : Channel N depth
  /-- The receiving end of `notices` exists. -/
  listening : Bool
  /-- A sending end of `requests` exists. -/
  held : Bool
  /-- Every command ever put into the channel. -/
  accepted : List (ℕ × Q)
  /-- Every command ever put to the peer, with its answer. -/
  served : List (ℕ × Σ q, R q)
  /-- Everything the peer ever raised. -/
  raised : List N

namespace State

def new : State Q R N ε α depth where
  callers := []
  requests := .empty
  owner := .handing []
  notices := .empty
  listening := true
  held := true
  accepted := []
  served := []
  raised := []

variable (s : State Q R N ε α depth)

/-- A method is called. -/
def call (method : Dialogue Q R ε α) : State Q R N ε α depth :=
  { s with callers := s.callers ++ [{ method := method }] }

/-- A caller stops waiting. -/
def leave (i : ℕ) : State Q R N ε α depth :=
  { s with callers := s.callers.modify i fun c => { c with gone := true } }

/-- The last sending end of `requests` is dropped. -/
def hangUp : State Q R N ε α depth := { s with held := false }

/-- The listener receives. -/
def taken : State Q R N ε α depth := { s with notices := s.notices.tail }

/-- The listener goes away, and what waited for it. -/
def deaf : State Q R N ε α depth := { s with notices := .empty, listening := false }

/-- Some caller waits for its method to end. -/
def Busy : Prop := ∃ c ∈ s.callers, c.Busy

/-- The answers the peer gave to one caller's commands. -/
def answersTo (i : ℕ) : List (Σ q, R q) := (s.served.filter fun x => x.1 = i).map Prod.snd

end State

/-- One step of the owner, or of a caller with its own command. A caller whose command can no
longer be answered is told `closed`. -/
inductive Step (closed : (q : Q) → R q) :
    State Q R N ε α depth → State Q R N ε α depth → Prop
  | send {s i c q next} : s.callers[i]? = some c → c.program = .ask q next → c.gone = false →
      c.queued = false → s.owner ≠ .stopped → (room : s.requests.Room) →
      Step closed s { s with
        callers := s.callers.set i { c with queued := true }
        requests := s.requests.push (i,q) room
        accepted := s.accepted ++ [(i,q)] }
  | refuse {s i c q next} : s.callers[i]? = some c → c.program = .ask q next → c.gone = false →
      s.owner = .stopped →
      Step closed s { s with callers := s.callers.set i (c.hear q (closed q) (next (closed q))) }
  | start {s i q rest} : s.owner = .handing [] → s.requests.items = (i,q)::rest →
      Step closed s { s with owner := .running i q, requests := s.requests.tail }
  | answer {s i c q next} (r : R q) (batch : List N) : s.owner = .running i q →
      s.callers[i]? = some c → c.gone = false → c.program = .ask q next →
      Step closed s { s with
        callers := s.callers.set i (c.hear q r (next r))
        owner := .handing batch
        served := s.served ++ [(i,⟨q,r⟩)]
        raised := s.raised ++ batch }
  | discardAnswer {s i c q} (r : R q) (batch : List N) : s.owner = .running i q →
      s.callers[i]? = some c → c.gone = true →
      Step closed s { s with
        owner := .handing batch
        served := s.served ++ [(i,⟨q,r⟩)]
        raised := s.raised ++ batch }
  | poll {s} : s.owner = .handing [] → s.requests.items = [] → s.held = true →
      Step closed s { s with owner := .polling }
  | polled {s} (batch : List N) : s.owner = .polling →
      Step closed s { s with owner := .handing batch, raised := s.raised ++ batch }
  | lost {s} : s.owner = .polling →
      Step closed s { s with owner := .stopped, requests := .empty }
  | finish {s} : s.owner = .handing [] → s.requests.items = [] → s.held = false →
      Step closed s { s with owner := .stopped, requests := .empty }
  | forward {s n rest} : s.owner = .handing (n::rest) → s.listening = true →
      (room : s.notices.Room) →
      Step closed s { s with owner := .handing rest, notices := s.notices.push n room }
  | discard {s n rest} : s.owner = .handing (n::rest) → s.listening = false →
      Step closed s { s with owner := .handing [] }

section Invariant

variable (s : State Q R N ε α depth)

/-- The commands taken from callers and not answered, the one with the peer first. -/
def State.outstanding : List (ℕ × Q) := s.owner.current ++ s.requests.items

/-- Whose command, and which. -/
def asked (x : ℕ × Σ q, R q) : ℕ × Q := (x.1,x.2.1)

/-- What holds of callers and commands in a reachable state. -/
structure Inv (closed : (q : Q) → R q) : Prop where
  told : ∀ (i : ℕ) c, s.callers[i]? = some c → c.method.Follows c.heard c.program
  answered : ∀ (i : ℕ) c, s.callers[i]? = some c → c.gone = false → ∃ refused : List Q,
    c.heard = s.answersTo i ++ refused.map (fun q => ⟨q,closed q⟩) ∧
      (refused ≠ [] → s.owner = .stopped)
  order : s.owner ≠ .stopped → s.accepted = s.served.map asked ++ s.outstanding
  started : s.served.map asked <+: s.accepted
  idle : s.owner = .stopped → s.outstanding = []
  present : ∀ x ∈ s.outstanding, ∃ c next, s.callers[x.1]? = some c ∧ c.queued = true ∧
    c.program = .ask x.2 next
  waiting : ∀ (i : ℕ) c, s.callers[i]? = some c → c.gone = false → c.queued = true →
    s.owner ≠ .stopped → i ∈ s.outstanding.map Prod.fst
  once : (s.outstanding.map Prod.fst).Nodup
  known : ∀ x ∈ s.accepted, x.1 < s.callers.length

end Invariant

section Callers

variable {callers : List (Caller Q R ε α)} {i j : ℕ} {c d : Caller Q R ε α}

/-- One caller replaced: another is still there, and the replaced one is the new one. -/
theorem of_set (h : (callers.set i c)[j]? = some d) :
    i = j ∧ d = c ∨ i ≠ j ∧ callers[j]? = some d := by
  rw [List.getElem?_set] at h
  split at h
  · rename_i hij
    split at h
    · exact .inl ⟨hij,(Option.some.inj h).symm⟩
    · cases h
  · rename_i hij
    exact .inr ⟨hij,h⟩

theorem set_same (h : callers[i]? = some d) : (callers.set i c)[i]? = some c := by
  rw [List.getElem?_set_self (List.getElem?_eq_some_iff.mp h).1]

theorem lt_of_some {A : Type} {as : List A} {i : ℕ} {a : A} (h : as[i]? = some a) : i < as.length :=
  (List.getElem?_eq_some_iff.mp h).1

end Callers

namespace Inv

variable {closed : (q : Q) → R q} {s s' : State Q R N ε α depth}

theorem new : Inv (State.new : State Q R N ε α depth) closed where
  told i c h := by simp [State.new] at h
  answered i c h := by simp [State.new] at h
  order _ := rfl
  started := List.prefix_refl _
  idle _ := rfl
  present x h := by simp [State.new,State.outstanding,Owner.current] at h
  waiting i c h := by simp [State.new] at h
  once := by simp [State.new,State.outstanding,Owner.current]
  known x h := by simp [State.new] at h

/-- Whatever touches neither callers nor their commands. -/
theorem congr (h : Inv s closed) (hcallers : s'.callers = s.callers)
    (haccepted : s'.accepted = s.accepted) (hserved : s'.served = s.served)
    (houtstanding : s'.outstanding = s.outstanding)
    (hstopped : s'.owner = .stopped ↔ s.owner = .stopped) : Inv s' closed where
  told i c hc := h.told i c (by rwa [← hcallers])
  answered i c hc hgone := by
    rw [State.answersTo,hserved,hstopped]
    exact h.answered i c (by rwa [← hcallers]) hgone
  order hne := by
    rw [haccepted,hserved,houtstanding]
    exact h.order fun hs => hne (hstopped.mpr hs)
  started := by
    rw [haccepted,hserved]
    exact h.started
  idle hs := by
    rw [houtstanding]
    exact h.idle (hstopped.mp hs)
  present x hx := by
    rw [hcallers]
    exact h.present x (by rwa [← houtstanding])
  waiting i c hc hgone hqueued hne := by
    rw [houtstanding]
    exact h.waiting i c (by rwa [← hcallers]) hgone hqueued fun hs => hne (hstopped.mpr hs)
  once := by
    rw [houtstanding]
    exact h.once
  known x hx := by
    rw [hcallers]
    exact h.known x (by rwa [← haccepted])

/-- The owner ends. -/
theorem stop (h : Inv s closed) : Inv { s with owner := .stopped, requests := .empty } closed where
  told := h.told
  answered i c hc hgone := by
    obtain ⟨refused,hheard,-⟩ := h.answered i c hc hgone
    exact ⟨refused,hheard,fun _ => rfl⟩
  order hne := absurd rfl hne
  started := h.started
  idle _ := rfl
  present x hx := by simp [State.outstanding,Owner.current] at hx
  waiting _ _ _ _ _ hne := absurd rfl hne
  once := by simp [State.outstanding,Owner.current]
  known := h.known

/-- A caller puts its command into the channel. -/
theorem send (h : Inv s closed) {i : ℕ} {c : Caller Q R ε α} {q : Q}
    {next : R q → Dialogue Q R ε α} (hc : s.callers[i]? = some c) (hp : c.program = .ask q next)
    (hqueued : c.queued = false) (hopen : s.owner ≠ .stopped) (room : s.requests.Room) :
    Inv { s with
      callers := s.callers.set i { c with queued := true }
      requests := s.requests.push (i,q) room
      accepted := s.accepted ++ [(i,q)] } closed where
  told j d hd := by
    rcases of_set hd with ⟨rfl,rfl⟩ | ⟨_,hd⟩
    · exact h.told i c hc
    · exact h.told j d hd
  answered j d hd hgone := by
    rcases of_set hd with ⟨rfl,rfl⟩ | ⟨_,hd⟩
    · exact h.answered i c hc hgone
    · exact h.answered j d hd hgone
  order hne := by
    simp only [State.outstanding,Channel.push_items]
    rw [h.order hne,State.outstanding]
    simp only [List.append_assoc]
  started := h.started.trans (List.prefix_append _ _)
  idle hs := absurd hs hopen
  present x hx := by
    simp only [State.outstanding,Channel.push_items,← List.append_assoc] at hx
    rcases List.mem_append.mp hx with hx | hx
    · obtain ⟨d,next',hd,hq,hask⟩ := h.present x hx
      by_cases hi : i = x.1
      · subst hi
        rw [hc] at hd
        cases hd
        rw [hqueued] at hq
        cases hq
      · exact ⟨d,next',by rw [List.getElem?_set_ne hi,hd],hq,hask⟩
    · rw [List.mem_singleton.mp hx]
      exact ⟨_,next,set_same hc,rfl,hp⟩
  waiting j d hd hgone hq _ := by
    simp only [State.outstanding,Channel.push_items,← List.append_assoc,List.map_append]
    rcases of_set hd with ⟨rfl,-⟩ | ⟨_,hd⟩
    · exact List.mem_append_right _ (by simp)
    · have hbefore := h.waiting j d hd hgone hq hopen
      rw [State.outstanding,List.map_append] at hbefore
      exact List.mem_append_left _ hbefore
  once := by
    have hfresh : i ∉ s.outstanding.map Prod.fst := by
      intro hmem
      obtain ⟨x,hx,rfl⟩ := List.mem_map.mp hmem
      obtain ⟨d,_,hd,hq,_⟩ := h.present x hx
      rw [hc] at hd
      cases hd
      rw [hqueued] at hq
      cases hq
    simp only [State.outstanding,Channel.push_items,← List.append_assoc] at hfresh ⊢
    rw [List.map_append,List.nodup_append]
    refine ⟨h.once,by simp,?_⟩
    rintro a ha b hb rfl
    rw [List.map_singleton,List.mem_singleton] at hb
    subst hb
    exact hfresh ha
  known x hx := by
    rw [List.length_set]
    rcases List.mem_append.mp hx with hx | hx
    · exact h.known x hx
    · rw [List.mem_singleton.mp hx]
      exact lt_of_some hc

/-- A caller is told that nobody can answer it. -/
theorem refuse (h : Inv s closed) {i : ℕ} {c : Caller Q R ε α} {q : Q}
    {next : R q → Dialogue Q R ε α} (hc : s.callers[i]? = some c) (hp : c.program = .ask q next)
    (hstopped : s.owner = .stopped) :
    Inv { s with callers := s.callers.set i (c.hear q (closed q) (next (closed q))) } closed where
  told j d hd := by
    rcases of_set hd with ⟨rfl,rfl⟩ | ⟨_,hd⟩
    · exact .snoc (closed q) (hp ▸ h.told i c hc)
    · exact h.told j d hd
  answered j d hd hgone := by
    rcases of_set hd with ⟨rfl,rfl⟩ | ⟨_,hd⟩
    · obtain ⟨refused,hheard,-⟩ := h.answered i c hc hgone
      refine ⟨refused ++ [q],?_,fun _ => hstopped⟩
      rw [Caller.hear,hheard,List.map_append,List.append_assoc]
      rfl
    · exact h.answered j d hd hgone
  order hne := absurd hstopped hne
  started := h.started
  idle := h.idle
  present x hx := by
    have hnone := h.idle hstopped
    rw [State.outstanding] at hx hnone
    rw [hnone] at hx
    cases hx
  waiting _ _ _ _ _ hne := absurd hstopped hne
  once := h.once
  known x hx := by
    rw [List.length_set]
    exact h.known x hx

theorem answersTo_served {served : List (ℕ × Σ q, R q)} {i : ℕ} {a : Σ q, R q} (j : ℕ)
    (hserved : s'.served = served ++ [(i,a)]) (hbefore : s.served = served) :
    s'.answersTo j = s.answersTo j ++ if i = j then [a] else [] := by
  rw [State.answersTo,hserved,List.filter_append,List.map_append,State.answersTo,hbefore]
  split <;> simp_all

/-- The peer has answered the owner's command; its caller hears it, if it still waits. -/
theorem answer (h : Inv s closed) {i : ℕ} {q : Q} {r : R q} {batch : List N}
    {callers : List (Caller Q R ε α)} (hrunning : s.owner = .running i q)
    (hlength : callers.length = s.callers.length)
    (hothers : ∀ j, i ≠ j → callers[j]? = s.callers[j]?)
    (hcaller : ∀ c, callers[i]? = some c → c.method.Follows c.heard c.program ∧
      (c.gone = false → c.queued = false ∧ ∃ d, s.callers[i]? = some d ∧ d.gone = false ∧
        c.heard = d.heard ++ [⟨q,r⟩])) :
    Inv { s with
      callers := callers
      owner := .handing batch
      served := s.served ++ [(i,⟨q,r⟩)]
      raised := s.raised ++ batch } closed where
  told j d hd := by
    by_cases hij : i = j
    · subst hij
      exact (hcaller d hd).1
    · exact h.told j d (by rwa [← hothers j hij])
  answered j d hd hgone := by
    rw [answersTo_served (s := s) j rfl rfl]
    by_cases hij : i = j
    · subst hij
      obtain ⟨-,e,he,hstays,hheard⟩ := (hcaller d hd).2 hgone
      obtain ⟨refused,hbefore,hup⟩ := h.answered i e he hstays
      have hnone : refused = [] := by
        by_contra hne
        have hstopped := hup hne
        rw [hrunning] at hstopped
        cases hstopped
      refine ⟨[],?_,fun hne => absurd rfl hne⟩
      rw [hheard,hbefore,hnone]
      simp
    · obtain ⟨refused,hheard,hup⟩ := h.answered j d (by rwa [← hothers j hij]) hgone
      refine ⟨refused,by simpa [hij] using hheard,fun hne => ?_⟩
      have hstopped := hup hne
      rw [hrunning] at hstopped
      cases hstopped
  order _ := by
    rw [h.order (by rw [hrunning]; nofun),State.outstanding,hrunning]
    simp [State.outstanding,Owner.current,asked]
  started := by
    have horder := h.order (by rw [hrunning]; nofun)
    rw [State.outstanding,hrunning] at horder
    rw [horder]
    simp [Owner.current,asked]
  idle := nofun
  present x hx := by
    have hbefore : x ∈ s.outstanding := by
      rw [State.outstanding,hrunning]
      exact List.mem_append_right _ hx
    obtain ⟨c,next,hc,hq,hask⟩ := h.present x hbefore
    have hne : i ≠ x.1 := by
      have honce := h.once
      rw [State.outstanding,hrunning] at honce
      rintro rfl
      have hqueue : x ∈ s.requests.items := hx
      exact (List.nodup_cons.mp honce).1 (List.mem_map.mpr ⟨x,hqueue,rfl⟩)
    exact ⟨c,next,by rw [hothers _ hne,hc],hq,hask⟩
  waiting j d hd hgone hq _ := by
    by_cases hij : i = j
    · subst hij
      rw [((hcaller d hd).2 hgone).1] at hq
      cases hq
    · have hbefore := h.waiting j d (by rwa [← hothers j hij]) hgone hq (by rw [hrunning]; nofun)
      rw [State.outstanding,hrunning] at hbefore
      exact (List.mem_cons.mp hbefore).resolve_left fun he => hij he.symm
  once := by
    have honce := h.once
    rw [State.outstanding,hrunning] at honce
    exact (List.nodup_cons.mp honce).2
  known x hx := by
    rw [hlength]
    exact h.known x hx

theorem call (h : Inv s closed) (method : Dialogue Q R ε α) : Inv (s.call method) closed := by
  have hnew {j : ℕ} {d : Caller Q R ε α} (hd : (s.call method).callers[j]? = some d) :
      s.callers[j]? = some d ∨ j = s.callers.length ∧ d = { method := method } := by
    rw [State.call,List.getElem?_append] at hd
    split at hd
    · exact .inl hd
    · rename_i hge
      obtain ⟨hlt,hd⟩ := List.getElem?_eq_some_iff.mp hd
      rw [List.length_singleton] at hlt
      simp only [List.getElem_singleton] at hd
      exact .inr ⟨by omega,hd.symm⟩
  have hold {j : ℕ} {d : Caller Q R ε α} (hd : s.callers[j]? = some d) :
      (s.call method).callers[j]? = some d := by
    rw [State.call,List.getElem?_append_left (lt_of_some hd),hd]
  refine ⟨fun j d hd => ?_,fun j d hd hgone => ?_,h.order,h.started,h.idle,fun x hx => ?_,
    fun j d hd hgone hq hne => ?_,h.once,fun x hx => ?_⟩
  · rcases hnew hd with hd | ⟨-,rfl⟩
    · exact h.told j d hd
    · exact .refl
  · rcases hnew hd with hd | ⟨rfl,rfl⟩
    · exact h.answered j d hd hgone
    · refine ⟨[],?_,fun hne => absurd rfl hne⟩
      have hnone : s.served.filter (fun x => x.1 = s.callers.length) = [] := by
        rw [List.filter_eq_nil_iff]
        intro x hx heq
        have hlt := h.known (asked x) (h.started.subset (List.mem_map_of_mem hx))
        rw [asked,of_decide_eq_true heq] at hlt
        exact absurd hlt (Nat.lt_irrefl _)
      simp [State.answersTo,State.call,hnone]
  · obtain ⟨c,next,hc,hrest⟩ := h.present x hx
    exact ⟨c,next,hold hc,hrest⟩
  · rcases hnew hd with hd | ⟨-,rfl⟩
    · exact h.waiting j d hd hgone hq hne
    · cases hq
  · rw [State.call,List.length_append]
    exact Nat.lt_add_right _ (h.known x hx)

theorem leave (h : Inv s closed) (i : ℕ) : Inv (s.leave i) closed := by
  have hof {j : ℕ} {d : Caller Q R ε α} (hd : (s.leave i).callers[j]? = some d) :
      ∃ c, s.callers[j]? = some c ∧ (d = c ∨ d = { c with gone := true }) := by
    rw [State.leave,List.getElem?_modify] at hd
    obtain ⟨c,hc,rfl⟩ := Option.map_eq_some_iff.mp hd
    refine ⟨c,hc,?_⟩
    split
    · exact .inr rfl
    · exact .inl rfl
  refine ⟨fun j d hd => ?_,fun j d hd hgone => ?_,h.order,h.started,h.idle,fun x hx => ?_,
    fun j d hd hgone hq hne => ?_,h.once,fun x hx => ?_⟩
  · obtain ⟨c,hc,rfl | rfl⟩ := hof hd
    · exact h.told j _ hc
    · exact h.told j c hc
  · obtain ⟨c,hc,rfl | rfl⟩ := hof hd
    · exact h.answered j _ hc hgone
    · cases hgone
  · obtain ⟨c,next,hc,hq,hask⟩ := h.present x hx
    simp only [State.leave,List.getElem?_modify,hc,Option.map_eq_map,Option.map_some]
    split
    · exact ⟨_,next,rfl,hq,hask⟩
    · exact ⟨_,next,rfl,hq,hask⟩
  · obtain ⟨c,hc,rfl | rfl⟩ := hof hd
    · exact h.waiting j _ hc hgone hq hne
    · cases hgone
  · rw [State.leave,List.length_modify]
    exact h.known x hx

theorem step (h : Inv s closed) (hstep : Step closed s s') : Inv s' closed := by
  cases hstep with
  | send hc hp _ hqueued hopen room => exact h.send hc hp hqueued hopen room
  | refuse hc hp _ hstopped => exact h.refuse hc hp hstopped
  | start hready hrequests =>
    refine h.congr rfl rfl rfl ?_ (by simp [hready])
    simp [State.outstanding,hready,hrequests,Owner.current]
  | @answer i c q next r batch hrunning hc hstays hp =>
    refine h.answer hrunning (List.length_set) (fun j hij => List.getElem?_set_ne hij) fun d hd => ?_
    rw [set_same hc] at hd
    cases hd
    exact ⟨.snoc r (hp ▸ h.told i c hc),fun _ => ⟨rfl,c,hc,hstays,rfl⟩⟩
  | @discardAnswer i c q r batch hrunning hc hgone =>
    refine h.answer hrunning rfl (fun _ _ => rfl) fun d hd => ?_
    rw [hc] at hd
    cases hd
    refine ⟨h.told i c hc,fun hstays => ?_⟩
    rw [hgone] at hstays
    cases hstays
  | poll hready hrequests _ =>
    exact h.congr rfl rfl rfl (by simp [State.outstanding,hready,Owner.current]) (by simp [hready])
  | polled batch hpolling =>
    exact h.congr rfl rfl rfl (by simp [State.outstanding,hpolling,Owner.current])
      (by simp [hpolling])
  | lost _ => exact h.stop
  | finish _ _ _ => exact h.stop
  | forward hhanding _ _ =>
    exact h.congr rfl rfl rfl (by simp [State.outstanding,hhanding,Owner.current])
      (by simp [hhanding])
  | discard hhanding _ =>
    exact h.congr rfl rfl rfl (by simp [State.outstanding,hhanding,Owner.current])
      (by simp [hhanding])

theorem hangUp (h : Inv s closed) : Inv s.hangUp closed := h.congr rfl rfl rfl rfl Iff.rfl

theorem taken (h : Inv s closed) : Inv s.taken closed := h.congr rfl rfl rfl rfl Iff.rfl

theorem deaf (h : Inv s closed) : Inv s.deaf closed := h.congr rfl rfl rfl rfl Iff.rfl

end Inv

section Notices

variable {closed : (q : Q) → R q} {s s' : State Q R N ε α depth}

/-- What the peer has raised and the listener has yet to receive. -/
def State.pending (s : State Q R N ε α depth) : List N := s.notices.items ++ s.owner.batch

/-- What is raised waits behind what was raised before; nothing that waits for a listener is
dropped. -/
theorem Step.raises (h : Step closed s s') (hlistening : s.listening = true) :
    s'.listening = true ∧ ∃ new, s'.raised = s.raised ++ new ∧ s'.pending = s.pending ++ new := by
  cases h with
  | send => exact ⟨hlistening,[],by simp,by simp [State.pending]⟩
  | refuse => exact ⟨hlistening,[],by simp,by simp [State.pending]⟩
  | start hready => exact ⟨hlistening,[],by simp,by simp [State.pending,hready,Owner.batch]⟩
  | answer _ batch hrunning =>
    exact ⟨hlistening,batch,rfl,by simp [State.pending,hrunning,Owner.batch]⟩
  | discardAnswer _ batch hrunning =>
    exact ⟨hlistening,batch,rfl,by simp [State.pending,hrunning,Owner.batch]⟩
  | poll hready => exact ⟨hlistening,[],by simp,by simp [State.pending,hready,Owner.batch]⟩
  | polled batch hpolling =>
    exact ⟨hlistening,batch,rfl,by simp [State.pending,hpolling,Owner.batch]⟩
  | lost hpolling => exact ⟨hlistening,[],by simp,by simp [State.pending,hpolling,Owner.batch]⟩
  | finish hready => exact ⟨hlistening,[],by simp,by simp [State.pending,hready,Owner.batch]⟩
  | forward hhanding =>
    exact ⟨hlistening,[],by simp,by simp [State.pending,hhanding,Owner.batch]⟩
  | discard _ hdeaf => simp [hlistening] at hdeaf

/-- As much as there is room for is forwarded. -/
theorem forwards {batch rest : List N} (howner : s.owner = .handing (batch ++ rest))
    (hlistening : s.listening = true) {notices : Channel N depth}
    (hnotices : notices.items = s.notices.items ++ batch) :
    Relation.ReflTransGen (Step closed) s
      { s with owner := .handing rest, notices := notices } := by
  induction batch generalizing s with
  | nil =>
    have hsame : notices = s.notices := Channel.ext_items (by simpa using hnotices)
    rw [List.nil_append] at howner
    rw [hsame,← howner]
  | cons n batch ih =>
    have room : s.notices.Room := by
      have hbound := notices.bound
      rw [hnotices,List.length_append,List.length_cons] at hbound
      rw [Channel.Room]
      omega
    refine .head (.forward howner hlistening room) (ih rfl hlistening ?_)
    rw [hnotices,Channel.push_items,List.append_assoc,List.singleton_append]

/-- Without a listener nothing is forwarded. -/
theorem Step.deaf (h : Step closed s s') (hdeaf : s.listening = false) :
    s'.listening = false ∧ s.raised <+: s'.raised := by
  cases h with
  | answer => exact ⟨hdeaf,List.prefix_append _ _⟩
  | discardAnswer => exact ⟨hdeaf,List.prefix_append _ _⟩
  | polled => exact ⟨hdeaf,List.prefix_append _ _⟩
  | forward _ hlistening => simp [hdeaf] at hlistening
  | _ => exact ⟨hdeaf,List.prefix_refl _⟩

/-- Once the owner has ended there is nothing more to come. -/
theorem Step.stopped (h : Step closed s s') (hstopped : s.owner = .stopped) :
    s'.owner = .stopped ∧ s'.raised = s.raised ∧ s'.pending = s.pending ∧
      s'.listening = s.listening := by
  cases h with
  | send _ _ _ _ hopen => exact absurd hstopped hopen
  | refuse => exact ⟨hstopped,rfl,rfl,rfl⟩
  | start hready => simp [hstopped] at hready
  | answer _ _ hrunning => simp [hstopped] at hrunning
  | discardAnswer _ _ hrunning => simp [hstopped] at hrunning
  | poll hready => simp [hstopped] at hready
  | polled _ hpolling => simp [hstopped] at hpolling
  | lost hpolling => simp [hstopped] at hpolling
  | finish hready => simp [hstopped] at hready
  | forward hhanding => simp [hstopped] at hhanding
  | discard hhanding => simp [hstopped] at hhanding

/-- What the peer has raised is never unsaid. -/
theorem Step.raised_prefix (h : Step closed s s') : s.raised <+: s'.raised := by
  cases hlistening : s.listening with
  | false => exact (h.deaf hlistening).2
  | true =>
    obtain ⟨-,new,hraised,-⟩ := h.raises hlistening
    rw [hraised]
    exact List.prefix_append _ _

end Notices

section Callers

variable {closed : (q : Q) → R q} {s s' : State Q R N ε α depth}

/-- Nobody starts waiting unless a method is called. -/
theorem Step.busy (h : Step closed s s') (hbusy : s'.Busy) : s.Busy := by
  have hwaits {i : ℕ} {c : Caller Q R ε α} {q : Q} {next : R q → Dialogue Q R ε α}
      (hc : s.callers[i]? = some c) (hp : c.program = .ask q next) (hstays : c.gone = false) :
      s.Busy := ⟨c,List.mem_of_getElem? hc,hstays,by rw [hp]; exact id⟩
  cases h with
  | send hc hp hstays => exact hwaits hc hp hstays
  | refuse hc hp hstays => exact hwaits hc hp hstays
  | answer _ _ _ hc hstays hp => exact hwaits hc hp hstays
  | _ => exact hbusy

end Callers

section Progress

variable {closed : (q : Q) → R q} {s s' : State Q R N ε α depth}

/-- The owner has something to forward to a listener that has no room for it. -/
def State.Stalled (s : State Q R N ε α depth) : Prop :=
  ∃ n rest, s.owner = .handing (n::rest) ∧ s.listening = true ∧ ¬ s.notices.Room

/-- What each caller has been told. -/
def State.histories (s : State Q R N ε α depth) : List (List (Σ q, R q)) :=
  s.callers.map Caller.heard

/-- A caller replaced by one who was told the same. -/
theorem histories_set {i : ℕ} {c d : Caller Q R ε α} (hc : s.callers[i]? = some c)
    (hheard : d.heard = c.heard) :
    (s.callers.set i d).map Caller.heard = s.histories := by
  have hold : s.histories[i]? = some c.heard := by rw [State.histories,List.getElem?_map,hc]; rfl
  rw [List.map_set,hheard]
  refine List.ext_getElem? fun j => ?_
  by_cases hij : i = j
  · subst hij
    rw [hold,List.getElem?_set_self]
    rw [List.length_map]
    exact lt_of_some hc
  · exact List.getElem?_set_ne hij

/-- A stalled owner stays stalled until the listener receives, and nobody is answered. -/
theorem Stalled.step (h : s.Stalled) (hstep : Step closed s s') :
    s'.Stalled ∧ s'.histories = s.histories ∧ (s.Busy → s'.Busy) := by
  obtain ⟨n,rest,howner,hlistening,hfull⟩ := h
  cases hstep with
  | @send i c q next hc hp hstays hqueued hopen room =>
    refine ⟨⟨n,rest,howner,hlistening,hfull⟩,?_,fun _ => ?_⟩
    · exact histories_set hc rfl
    · refine ⟨_,List.mem_of_getElem? (set_same hc),hstays,?_⟩
      simp only [hp]
      exact id
  | refuse _ _ _ hstopped => simp [howner] at hstopped
  | start hready => simp [howner] at hready
  | answer _ _ hrunning => simp [howner] at hrunning
  | discardAnswer _ _ hrunning => simp [howner] at hrunning
  | poll hready => simp [howner] at hready
  | polled _ hpolling => simp [howner] at hpolling
  | lost hpolling => simp [howner] at hpolling
  | finish hready => simp [howner] at hready
  | forward _ _ room => exact absurd room hfull
  | discard _ hdeaf => simp [hlistening] at hdeaf

end Progress
end Serving
end Rszigbee
