import October.ConnectedRegistry

/-!
Creating a runtime in a process of its own, beside the tasks that accept the runtimes'
links. A call of `create` files a waiter under the id, spawns the process and waits until
the waiter is resolved, dropped or has waited too long. Calls, links and removals may
interleave in any way; what is answered is read off the order of an id's watches and
registrations.
-/
namespace October.ProvisionedRuntimes

inductive CreateError where
  | spawn (text : String)
  | timedOut
  | dropped
  deriving DecidableEq

def CreateError.display : CreateError → String
  | .spawn text => text
  | .timedOut => "runtime connection timed out"
  | .dropped => "connection channel dropped"

inductive CreatePhase where
  | spawning
  | awaiting
  | returned (result : Except CreateError Unit)

structure Create where
  runtimeId : String
  phase : CreatePhase

inductive Note where
  | watched (runtimeId : String) (call : ℕ)
  | registered (runtimeId : String) (connection : ℕ)
  | removed (runtimeId : String)
  deriving DecidableEq

/-- The links of the listener, and the calls of `create` by the number of their waiter. -/
structure Provisioning where
  links : RuntimeLinks
  creates : ℕ → Option Create
  notes : List Note

inductive Label where
  | link (l : LinksLabel)
  | create (call : ℕ) (runtimeId : String)
  | spawn (call : ℕ) (outcome : Except String Unit)
  | ready (call : ℕ)
  | dropped (call : ℕ)
  | timedOut (call : ℕ)

namespace Provisioning

def init : Provisioning := ⟨RuntimeLinks.init, fun _ => none, []⟩

def notesOf (links : RuntimeLinks) : LinksLabel → List Note
  | .register i =>
    match links.connections i with
    | some ⟨.registering runtimeId, _⟩ => [.registered runtimeId i]
    | _ => []
  | .cleanUp i =>
    match links.connections i with
    | some ⟨.serving runtimeId, _⟩ => [.removed runtimeId]
    | _ => []
  | .stop runtimeId => [.removed runtimeId]
  | _ => []

def setCreate (call : ℕ) (c : Create) (s : Provisioning) : Provisioning :=
  { s with creates := fun n => if n = call then some c else s.creates n }

/-- The call returns; the spawned process is killed with an error. -/
def giveBack (call : ℕ) (runtimeId : String) (result : Except CreateError Unit)
    (s : Provisioning) : Provisioning := s.setCreate call ⟨runtimeId, .returned result⟩

def onFile (s : Provisioning) (call : ℕ) (runtimeId : String) : Bool :=
  s.links.registry.pending.lookup runtimeId == some call

def fired (s : Provisioning) (call : ℕ) : Bool := s.links.ready.contains call

/-- A call files its waiter before it spawns the process. A timeout finds neither a signal
nor a dropped sender. -/
def next (s : Provisioning) : Label → Option Provisioning
  | .link (.notifyWhenReady _ _) => none
  | .link l => (s.links.next l).map (fun links =>
      { s with links := links, notes := s.notes ++ notesOf s.links l })
  | .create call runtimeId =>
    match s.creates call with
    | some _ => none
    | none => some { s.setCreate call ⟨runtimeId, .spawning⟩ with
        links := { s.links with registry := s.links.registry.notifyWhenReady runtimeId call }
        notes := s.notes ++ [.watched runtimeId call] }
  | .spawn call outcome =>
    match s.creates call with
    | some ⟨runtimeId, .spawning⟩ =>
      match outcome with
      | .ok () => some (s.setCreate call ⟨runtimeId, .awaiting⟩)
      | .error e => some (s.giveBack call runtimeId (.error (.spawn e)))
    | _ => none
  | .ready call =>
    match s.creates call with
    | some ⟨runtimeId, .awaiting⟩ =>
      if s.fired call then some (s.giveBack call runtimeId (.ok ())) else none
    | _ => none
  | .dropped call =>
    match s.creates call with
    | some ⟨runtimeId, .awaiting⟩ =>
      if !s.fired call && !s.onFile call runtimeId then
        some (s.giveBack call runtimeId (.error .dropped))
      else none
    | _ => none
  | .timedOut call =>
    match s.creates call with
    | some ⟨runtimeId, .awaiting⟩ =>
      if !s.fired call && s.onFile call runtimeId then
        some (s.giveBack call runtimeId (.error .timedOut))
      else none
    | _ => none

end Provisioning

open Provisioning

section History

def concerns (runtimeId : String) : Note → Bool
  | .watched id _ => id == runtimeId
  | .registered id _ => id == runtimeId
  | .removed _ => false

def LatestWatch (notes : List Note) (runtimeId : String) (call : ℕ) : Prop :=
  notes.reverse.find? (concerns runtimeId) = some (.watched runtimeId call)

/-- A connection registered while the call's waiter was the latest. -/
def Answered (notes : List Note) (runtimeId : String) (call : ℕ) : Prop :=
  ∃ before connection after, notes = before ++ .registered runtimeId connection :: after ∧
    LatestWatch before runtimeId call

/-- Another call filed its waiter while the call's was the latest. -/
def Superseded (notes : List Note) (runtimeId : String) (call : ℕ) : Prop :=
  ∃ before other after, notes = before ++ .watched runtimeId other :: after ∧
    LatestWatch before runtimeId call ∧ other ≠ call

variable {notes : List Note} {runtimeId : String} {call : ℕ} {note : Note}

theorem LatestWatch.append (h : LatestWatch notes runtimeId call)
    (hnote : concerns runtimeId note = false) :
    LatestWatch (notes ++ [note]) runtimeId call := by
  unfold LatestWatch
  rw [List.reverse_concat, List.find?_cons_of_neg (by simp [hnote])]
  exact h

theorem latestWatch_watched (notes : List Note) (runtimeId : String) (call : ℕ) :
    LatestWatch (notes ++ [.watched runtimeId call]) runtimeId call := by
  unfold LatestWatch
  rw [List.reverse_concat, List.find?_cons_of_pos (by simp [concerns])]

theorem LatestWatch.unique {other : ℕ} (h : LatestWatch notes runtimeId call)
    (h' : LatestWatch notes runtimeId other) : call = other := by
  cases h.symm.trans h'
  rfl

theorem LatestWatch.mem (h : LatestWatch notes runtimeId call) :
    .watched runtimeId call ∈ notes :=
  List.mem_reverse.mp (List.mem_of_find?_eq_some h)

theorem Answered.append (h : Answered notes runtimeId call) (more : List Note) :
    Answered (notes ++ more) runtimeId call := by
  obtain ⟨before, connection, after, rfl, hlatest⟩ := h
  exact ⟨before, connection, after ++ more, by simp, hlatest⟩

theorem Superseded.append (h : Superseded notes runtimeId call) (more : List Note) :
    Superseded (notes ++ more) runtimeId call := by
  obtain ⟨before, other, after, rfl, hlatest⟩ := h
  exact ⟨before, other, after ++ more, by simp, hlatest⟩

theorem Answered.mem (h : Answered notes runtimeId call) : .watched runtimeId call ∈ notes := by
  obtain ⟨before, connection, after, rfl, hlatest⟩ := h
  exact List.mem_append_left _ hlatest.mem

end History

section Links

inductive LinkStep (links links' : RuntimeLinks) : List Note → Prop
  | quiet (hregistry : links'.registry = links.registry) (hready : links'.ready = links.ready) :
    LinkStep links links' []
  | registered (runtimeId : String) (i : ℕ)
    (hregistry : links'.registry = (links.registry.registerTransport runtimeId i).2)
    (hready : links'.ready =
      links.ready ++ (links.registry.pending.lookup runtimeId).toList) :
    LinkStep links links' [.registered runtimeId i]
  | removed (runtimeId : String) (hregistry : links'.registry = links.registry.remove runtimeId)
    (hready : links'.ready = links.ready) :
    LinkStep links links' [.removed runtimeId]

theorem linkStep {links links' : RuntimeLinks} {l : LinksLabel}
    (hl : ∀ runtimeId waiter, l ≠ .notifyWhenReady runtimeId waiter)
    (h : links.next l = some links') : LinkStep links links' (notesOf links l) := by
  cases l with
  | accept i =>
    simp only [RuntimeLinks.next] at h
    split at h
    · cases h
    · cases h
      exact .quiet rfl rfl
  | handshake i item =>
    simp only [RuntimeLinks.next] at h
    split at h
    · cases h
      exact .quiet rfl rfl
    · cases h
  | register i =>
    simp only [RuntimeLinks.next] at h
    split at h
    · next runtimeId closed hi =>
      cases h
      simp only [notesOf, hi]
      exact .registered runtimeId i rfl rfl
    · cases h
  | closed i =>
    simp only [RuntimeLinks.next] at h
    split at h
    · cases h
      exact .quiet rfl rfl
    · cases h
      exact .quiet rfl rfl
    · cases h
  | cleanUp i =>
    simp only [RuntimeLinks.next] at h
    split at h
    · next runtimeId hi =>
      cases h
      simp only [notesOf, hi]
      exact .removed runtimeId rfl rfl
    · cases h
  | stop runtimeId =>
    cases h
    exact .removed runtimeId rfl rfl
  | notifyWhenReady runtimeId waiter => exact absurd rfl (hl runtimeId waiter)

end Links

section Waiters

structure Told (links : RuntimeLinks) (notes : List Note) : Prop where
  filed : ∀ runtimeId call, links.registry.pending.lookup runtimeId = some call →
    LatestWatch notes runtimeId call
  ready : ∀ call ∈ links.ready, ∃ runtimeId, Answered notes runtimeId call
  present : ∀ before runtimeId connection after,
    notes = before ++ .registered runtimeId connection :: after → .removed runtimeId ∉ after →
      ∃ transport, links.registry.runtimeTransport runtimeId = some transport

def Placed (links : RuntimeLinks) (notes : List Note) (runtimeId : String) (call : ℕ) : Prop :=
  links.registry.pending.lookup runtimeId = some call ∨ call ∈ links.ready ∨
    Superseded notes runtimeId call

variable {links links' : RuntimeLinks} {notes more : List Note}

/-- A registration that is not followed by a removal, in a history with one more note. -/
theorem split_concat {notes before after : List Note} {note : Note} {runtimeId : String}
    {connection : ℕ}
    (h : notes ++ [note] = before ++ .registered runtimeId connection :: after) :
    note = .registered runtimeId connection ∧ after = [] ∨
      ∃ after', after = after' ++ [note] ∧
        notes = before ++ .registered runtimeId connection :: after' := by
  rcases List.eq_nil_or_concat after with rfl | ⟨after', last, rfl⟩
  · obtain ⟨-, hlast⟩ := List.append_inj' h rfl
    exact Or.inl ⟨(List.cons.inj hlast).1, rfl⟩
  · rw [List.concat_eq_append, ← List.cons_append, ← List.append_assoc] at h
    obtain ⟨hnotes, hlast⟩ := List.append_inj' h rfl
    exact Or.inr ⟨after', by rw [List.concat_eq_append, (List.cons.inj hlast).1], hnotes⟩

theorem told_link (h : Told links notes) (hstep : LinkStep links links' more) :
    Told links' (notes ++ more) := by
  cases hstep with
  | quiet hregistry hready =>
    rw [List.append_nil]
    exact ⟨hregistry ▸ h.filed, hready ▸ h.ready, hregistry ▸ h.present⟩
  | registered id i hregistry hready =>
    constructor
    · intro runtimeId call hfiled
      rw [hregistry] at hfiled
      change (links.registry.pending.erase id).lookup runtimeId = some call at hfiled
      rcases eq_or_ne runtimeId id with rfl | hne
      · rw [AList.lookup_erase] at hfiled
        cases hfiled
      · rw [AList.lookup_erase_ne hne] at hfiled
        exact (h.filed runtimeId call hfiled).append (by simp [concerns, hne.symm])
    · intro call hcall
      rw [hready] at hcall
      rcases List.mem_append.mp hcall with hcall | hcall
      · exact (h.ready call hcall).imp fun _ hanswered => hanswered.append _
      · exact ⟨id, notes, i, [], rfl, h.filed id call (Option.mem_toList.mp hcall)⟩
    · intro before runtimeId connection after hnotes hremoved
      rw [hregistry]
      change ∃ transport, (links.registry.transports.insert id i).lookup runtimeId = some transport
      rcases eq_or_ne runtimeId id with rfl | hne
      · exact ⟨i, AList.lookup_insert _⟩
      · rw [AList.lookup_insert_ne hne]
        rcases split_concat hnotes with ⟨hnote, _⟩ | ⟨after', rfl, hsplit⟩
        · cases hnote
          exact absurd rfl hne
        · exact h.present before runtimeId connection after' hsplit
            fun hmem => hremoved (List.mem_append_left _ hmem)
  | removed id hregistry hready =>
    constructor
    · intro runtimeId call hfiled
      rw [hregistry] at hfiled
      exact (h.filed runtimeId call hfiled).append rfl
    · intro call hcall
      rw [hready] at hcall
      exact (h.ready call hcall).imp fun _ hanswered => hanswered.append _
    · intro before runtimeId connection after hnotes hremoved
      rcases split_concat hnotes with ⟨hnote, _⟩ | ⟨after', rfl, hsplit⟩
      · cases hnote
      · have hne : runtimeId ≠ id := by
          rintro rfl
          exact hremoved (List.mem_append_right _ (List.mem_singleton.mpr rfl))
        rw [hregistry]
        change ∃ transport, (links.registry.transports.erase id).lookup runtimeId = some transport
        rw [AList.lookup_erase_ne hne]
        exact h.present before runtimeId connection after' hsplit
          fun hmem => hremoved (List.mem_append_left _ hmem)

theorem told_watch (h : Told links notes) (id : String) (call : ℕ) :
    Told { links with registry := links.registry.notifyWhenReady id call }
      (notes ++ [.watched id call]) := by
  constructor
  · intro runtimeId other hfiled
    change (links.registry.pending.insert id call).lookup runtimeId = some other at hfiled
    rcases eq_or_ne runtimeId id with rfl | hne
    · rw [AList.lookup_insert] at hfiled
      cases hfiled
      exact latestWatch_watched notes runtimeId call
    · rw [AList.lookup_insert_ne hne] at hfiled
      exact (h.filed runtimeId other hfiled).append (by simp [concerns, hne.symm])
  · exact fun other hother => (h.ready other hother).imp fun _ hanswered => hanswered.append _
  · intro before runtimeId connection after hnotes hremoved
    rcases split_concat hnotes with ⟨hnote, _⟩ | ⟨after', rfl, hsplit⟩
    · cases hnote
    · exact h.present before runtimeId connection after' hsplit
        fun hmem => hremoved (List.mem_append_left _ hmem)

theorem placed_link {runtimeId : String} {call : ℕ} (h : Placed links notes runtimeId call)
    (hstep : LinkStep links links' more) : Placed links' (notes ++ more) runtimeId call := by
  rcases h with hfiled | hready | hsuperseded
  · cases hstep with
    | quiet hregistry _ => exact Or.inl (hregistry ▸ hfiled)
    | registered id i hregistry hready =>
      rcases eq_or_ne runtimeId id with rfl | hne
      · refine Or.inr (Or.inl ?_)
        rw [hready, hfiled]
        exact List.mem_append_right _ (List.mem_singleton.mpr rfl)
      · refine Or.inl ?_
        rw [hregistry]
        exact (AList.lookup_erase_ne hne).trans hfiled
    | removed id hregistry _ => exact Or.inl (hregistry ▸ hfiled)
  · refine Or.inr (Or.inl ?_)
    cases hstep with
    | quiet _ hsame => exact hsame ▸ hready
    | registered _ _ _ hmore => exact hmore ▸ List.mem_append_left _ hready
    | removed _ _ hsame => exact hsame ▸ hready
  · exact Or.inr (Or.inr (hsuperseded.append more))

/-- A waiter that is on file is superseded by the next one under its id. -/
theorem placed_watch {runtimeId : String} {call other : ℕ} (htold : Told links notes)
    (h : Placed links notes runtimeId call) (hother : call ≠ other) (id : String) :
    Placed { links with registry := links.registry.notifyWhenReady id other }
      (notes ++ [.watched id other]) runtimeId call := by
  rcases h with hfiled | hready | hsuperseded
  · rcases eq_or_ne runtimeId id with rfl | hne
    · exact Or.inr (Or.inr
        ⟨notes, other, [], rfl, htold.filed runtimeId call hfiled, hother.symm⟩)
    · exact Or.inl ((AList.lookup_insert_ne hne).trans hfiled)
  · exact Or.inr (Or.inl hready)
  · exact Or.inr (Or.inr (hsuperseded.append _))

end Waiters

section Calls

def Explained (s : Provisioning) (runtimeId : String) (call : ℕ) :
    Except CreateError Unit → Prop
  | .ok () => call ∈ s.links.ready
  | .error .dropped => Superseded s.notes runtimeId call
  | .error .timedOut => True
  | .error (.spawn _) => True

/-- Every watch is that of a call, every call's waiter is somewhere, and every result is
explained by where it is. -/
structure Provisioned (s : Provisioning) : Prop where
  told : Told s.links s.notes
  own : ∀ runtimeId call, .watched runtimeId call ∈ s.notes →
    ∃ phase, s.creates call = some ⟨runtimeId, phase⟩
  placed : ∀ call c, s.creates call = some c → Placed s.links s.notes c.runtimeId call
  explained : ∀ call runtimeId result, s.creates call = some ⟨runtimeId, .returned result⟩ →
    Explained s runtimeId call result

variable {s t : Provisioning}

/-- A call whose waiter stays where it is goes on to another phase. -/
theorem provisioned_setCreate (h : Provisioned s) {call : ℕ} {runtimeId : String}
    {phase phase' : CreatePhase} (hcall : s.creates call = some ⟨runtimeId, phase⟩)
    (hexplained : ∀ result, phase' = .returned result → Explained s runtimeId call result) :
    Provisioned (s.setCreate call ⟨runtimeId, phase'⟩) := by
  have hcreates (n : ℕ) : (s.setCreate call ⟨runtimeId, phase'⟩).creates n =
      if n = call then some ⟨runtimeId, phase'⟩ else s.creates n := rfl
  constructor
  · exact h.told
  · intro id n hn
    rw [hcreates]
    obtain ⟨old, hold⟩ := h.own id n hn
    split
    · next heq =>
      subst heq
      cases hcall.symm.trans hold
      exact ⟨phase', rfl⟩
    · exact ⟨old, hold⟩
  · intro n c hn
    rw [hcreates] at hn
    split at hn
    · next heq =>
      subst heq
      cases hn
      exact h.placed n ⟨runtimeId, phase⟩ hcall
    · exact h.placed n c hn
  · intro n id result hn
    rw [hcreates] at hn
    split at hn
    · next heq =>
      subst heq
      obtain ⟨rfl, hphase⟩ := Create.mk.inj (Option.some.inj hn)
      exact hexplained result hphase
    · exact h.explained n id result hn

theorem provisioned_link (h : Provisioned s) {links : RuntimeLinks} {more : List Note}
    (hstep : LinkStep s.links links more) :
    Provisioned { s with links := links, notes := s.notes ++ more } := by
  have hready : ∀ n ∈ s.links.ready, n ∈ links.ready := by
    intro n hn
    cases hstep with
    | quiet _ hsame => exact hsame ▸ hn
    | registered _ _ _ hmore => exact hmore ▸ List.mem_append_left _ hn
    | removed _ _ hsame => exact hsame ▸ hn
  constructor
  · exact told_link h.told hstep
  · intro id n hn
    refine h.own id n ((List.mem_append.mp hn).resolve_right fun hmem => ?_)
    -- no step of the links files a waiter
    cases hstep <;> simp at hmem
  · exact fun n c hn => placed_link (h.placed n c hn) hstep
  · intro n id result hn
    have hbefore := h.explained n id result hn
    match result with
    | .ok () => exact hready n hbefore
    | .error .dropped => exact Superseded.append hbefore more
    | .error .timedOut => exact trivial
    | .error (.spawn _) => exact trivial

theorem provisioned_watch (h : Provisioned s) {call : ℕ} (hfresh : s.creates call = none)
    (runtimeId : String) :
    Provisioned { s.setCreate call ⟨runtimeId, .spawning⟩ with
      links := { s.links with registry := s.links.registry.notifyWhenReady runtimeId call }
      notes := s.notes ++ [.watched runtimeId call] } := by
  have hother {n : ℕ} {c : Create} (hn : s.creates n = some c) : n ≠ call := by
    rintro rfl
    cases hfresh.symm.trans hn
  constructor
  · exact told_watch h.told runtimeId call
  · intro id n hn
    rcases List.mem_append.mp hn with hn | hn
    · obtain ⟨phase, hphase⟩ := h.own id n hn
      exact ⟨phase, (if_neg (hother hphase)).trans hphase⟩
    · cases List.mem_singleton.mp hn
      exact ⟨.spawning, if_pos rfl⟩
  · intro n c hn
    change (if n = call then some ⟨runtimeId, .spawning⟩ else s.creates n) = some c at hn
    split at hn
    · next heq =>
      subst heq
      cases hn
      exact Or.inl (AList.lookup_insert _)
    · exact placed_watch h.told (h.placed n c hn) (hother hn) runtimeId
  · intro n id result hn
    change (if n = call then some ⟨runtimeId, .spawning⟩ else s.creates n) = _ at hn
    split at hn
    · cases hn
    · have hbefore := h.explained n id result hn
      match result with
      | .ok () => exact hbefore
      | .error .dropped => exact Superseded.append hbefore _
      | .error .timedOut => exact trivial
      | .error (.spawn _) => exact trivial

theorem next_link (s : Provisioning) {l : LinksLabel}
    (hl : ∀ runtimeId waiter, l ≠ .notifyWhenReady runtimeId waiter) :
    next s (.link l) = (s.links.next l).map (fun links =>
      { s with links := links, notes := s.notes ++ notesOf s.links l }) := by
  cases l with
  | notifyWhenReady runtimeId waiter => exact absurd rfl (hl runtimeId waiter)
  | accept => rfl
  | handshake => rfl
  | register => rfl
  | closed => rfl
  | cleanUp => rfl
  | stop => rfl

theorem provisioned_step {l : Label} (h : Provisioned s) (hnext : next s l = some t) :
    Provisioned t := by
  cases l with
  | link l =>
    by_cases hl : ∃ runtimeId waiter, l = .notifyWhenReady runtimeId waiter
    · obtain ⟨_, _, rfl⟩ := hl
      cases hnext
    · have hne (runtimeId : String) (waiter : ℕ) : l ≠ .notifyWhenReady runtimeId waiter :=
        fun heq => hl ⟨runtimeId, waiter, heq⟩
      rw [next_link s hne] at hnext
      obtain ⟨links, hlinks, rfl⟩ := Option.map_eq_some_iff.mp hnext
      exact provisioned_link h (linkStep hne hlinks)
  | create call runtimeId =>
    simp only [next] at hnext
    split at hnext
    · cases hnext
    · next hfresh =>
      cases hnext
      exact provisioned_watch h hfresh runtimeId
  | spawn call outcome =>
    simp only [next] at hnext
    split at hnext
    · next runtimeId hcall =>
      split at hnext
      · cases hnext
        exact provisioned_setCreate h hcall fun _ hphase => by cases hphase
      · cases hnext
        refine provisioned_setCreate h hcall fun result hphase => ?_
        cases hphase
        exact trivial
    · cases hnext
  | ready call =>
    simp only [next] at hnext
    split at hnext
    · next runtimeId hcall =>
      split at hnext
      · next hfired =>
        cases hnext
        refine provisioned_setCreate h hcall fun result hphase => ?_
        cases hphase
        exact List.contains_iff_mem.mp hfired
      · cases hnext
    · cases hnext
  | dropped call =>
    simp only [next] at hnext
    split at hnext
    · next runtimeId hcall =>
      split at hnext
      · next hgone =>
        cases hnext
        refine provisioned_setCreate h hcall fun result hphase => ?_
        cases hphase
        simp only [fired, onFile, Bool.and_eq_true, Bool.not_eq_true', List.contains_eq_mem,
          decide_eq_false_iff_not, beq_eq_false_iff_ne] at hgone
        exact ((h.placed call _ hcall).resolve_left hgone.2).resolve_left hgone.1
      · cases hnext
    · cases hnext
  | timedOut call =>
    simp only [next] at hnext
    split at hnext
    · next runtimeId hcall =>
      split at hnext
      · cases hnext
        refine provisioned_setCreate h hcall fun result hphase => ?_
        cases hphase
        exact trivial
      · cases hnext
    · cases hnext

theorem provisioned_init : Provisioned init := by
  constructor
  · refine ⟨fun _ _ h => (by cases h), fun _ h => absurd h List.not_mem_nil, ?_⟩
    intro before runtimeId connection after h
    exact absurd h.symm (by simp [init])
  · exact fun _ _ h => absurd h List.not_mem_nil
  · exact fun _ _ h => by cases h
  · exact fun _ _ _ h => by cases h

end Calls

/-- In every interleaving, a call of `create` that succeeds was answered by a connection that
registered its id while the call's watch was the id's latest, so by no connection that also
answers another call; and unless the id was removed since, a transport is found for it. A
call whose channel was dropped was superseded by another call for its id. -/
theorem create_explained (s : Provisioning) (hrun : Machine.Run next Machine.free init s)
    {call : ℕ} {runtimeId : String} :
    (s.creates call = some ⟨runtimeId, .returned (.ok ())⟩ →
      ∃ before connection after, s.notes = before ++ .registered runtimeId connection :: after ∧
        LatestWatch before runtimeId call ∧
        (∀ other, LatestWatch before runtimeId other → other = call) ∧
        (.removed runtimeId ∉ after →
          ∃ transport, s.links.registry.runtimeTransport runtimeId = some transport)) ∧
      (s.creates call = some ⟨runtimeId, .returned (.error .dropped)⟩ →
        Superseded s.notes runtimeId call) := by
  have hinv : Provisioned s :=
    hrun.invariant Provisioned (fun _ _ _ h _ hnext => provisioned_step h hnext) provisioned_init
  refine ⟨fun hok => ?_, fun hdropped => hinv.explained call runtimeId _ hdropped⟩
  have hready : call ∈ s.links.ready := hinv.explained call runtimeId _ hok
  obtain ⟨id, hanswered⟩ := hinv.told.ready call hready
  obtain ⟨phase, hphase⟩ := hinv.own id call hanswered.mem
  cases hok.symm.trans hphase
  obtain ⟨before, connection, after, hnotes, hlatest⟩ := hanswered
  exact ⟨before, connection, after, hnotes, hlatest, fun other hother => hother.unique hlatest,
    hinv.told.present before runtimeId connection after hnotes⟩

def twoCalls : List Label :=
  [.create 0 "rt", .spawn 0 (.ok ()), .create 1 "rt", .spawn 1 (.ok ()), .link (.accept 7),
    .link (.handshake 7 (some (.text (some (.ready "rt"))))), .link (.register 7), .ready 1,
    .dropped 0]

/-- The second call has the runtime, and the first one lost its waiter to it. -/
theorem create_explained_twice :
    (∃ transport, (Machine.final next Machine.free init twoCalls).links.registry.runtimeTransport
        "rt" = some transport) ∧
      Superseded (Machine.final next Machine.free init twoCalls).notes "rt" 0 := by
  have hrun : Machine.Run next Machine.free init (Machine.final next Machine.free init twoCalls) :=
    Machine.run_final twoCalls (by decide)
  obtain ⟨before, connection, after, hnotes, _, _, hpresent⟩ :=
    (create_explained _ hrun).1 (show (Machine.final next Machine.free init twoCalls).creates 1 =
      some ⟨"rt", .returned (.ok ())⟩ from rfl)
  refine ⟨hpresent fun hremoved => ?_, (create_explained _ hrun).2 rfl⟩
  have hmem : Note.removed "rt" ∈ (Machine.final next Machine.free init twoCalls).notes :=
    hnotes ▸ List.mem_append_right before (List.mem_cons_of_mem _ hremoved)
  exact absurd hmem (by decide)

end October.ProvisionedRuntimes
