import October.SinkSteps
import Mathlib.Data.List.Perm.Subperm

/-!
What a connection that follows a job's log is shown. Its live tail accounts for every frame
that was sent since it subscribed, and ends only when nobody can send any more. Of what its
history shows nothing is sent again, except what a sink had handed to its forwarder and
not yet to the log when the connection subscribed: one event of a run at most.
-/
namespace October.FollowedLogs

open AgentActor StreamedRuns RenderedHistory LogStreams Broadcast SinkSteps

/-- The events that a session journals of what its sinks handed on. -/
def images (place : ℕ) (emissions : List Emission) : List AgentDomainEvent :=
  (emissions.filter (fun e => e.session == place)).filterMap (fun e => coarseEvent e.event)

def handedOn (job : LiveJob) : List Emission := job.published ++ job.publishing

def Emission.origin (e : Emission) : ℕ × ℕ := (e.session, e.run)

structure Inv (job : LiveJob) : Prop where
  logged : job.logs =
    ⟨logBroadcastCapacity, job.published.filterMap (frame job.jobId)⟩
  single : (job.publishing.map Emission.origin).Nodup
  opened : ∀ e ∈ job.publishing, ∃ s r, job.sessions[e.session]? = some s ∧
    s.runs[e.run]? = some r ∧ r.sinkOpen = true
  drained : ∀ s ∈ job.sessions, Drained s
  journaled : ∀ p, Streamed p → ∀ place s, job.sessions[place]? = some s →
    held p s ≤ (images place (handedOn job)).countP p
  seen : ∀ p, Streamed p → ∀ follower f, job.followers follower = some f →
    ∀ place recovered events, .session place recovered events ∈ f.history →
      events.countP p ≤ (images place (handedOn job)).countP p

section Jobs

variable {job job' : LiveJob} {place run : ℕ}

theorem comesFrom_iff (e : Emission) :
    e.comesFrom place run = true ↔ Emission.origin e = (place, run) := by
  simp [Emission.comesFrom, Emission.origin]

theorem busy_iff :
    job.busy place run = true ↔ (place, run) ∈ job.publishing.map Emission.origin := by
  simp only [LiveJob.busy, List.any_eq_true, comesFrom_iff, List.mem_map]

/-- What a step of a session comes to. -/
theorem stepSession_cases {l : StreamLabel} (h : job.stepSession place l = some job') :
    ∃ s t, job.sessions[place]? = some s ∧ StreamedRuns.next s l = some t ∧
      (job' = job.setSession place t ∧ hands s l = [] ∧
          (∀ run, l = .drop run → job.busy place run = false) ∨
        ∃ run event, l = .emit run ∧ nextEvent s run = some event ∧
          job.busy place run = false ∧
          job' = { job.setSession place t with
            publishing := job.publishing ++ [⟨place, run, event⟩] }) := by
  unfold LiveJob.stepSession at h
  split at h
  · cases h
  · next s hget =>
    split at h
    · next run =>
      split at h
      · cases h
      · next hbusy =>
        split at h
        · next event t hevent hnext =>
          exact ⟨s, t, hget, hnext, .inr ⟨run, event, rfl, hevent, by simpa using hbusy,
            (Option.some.inj h).symm⟩⟩
        · cases h
    · next run =>
      split at h
      · cases h
      · next hbusy =>
        obtain ⟨t, hnext, rfl⟩ := Option.map_eq_some_iff.mp h
        refine ⟨s, t, hget, hnext, .inl ⟨rfl, rfl, fun other heq => ?_⟩⟩
        cases heq
        simpa using hbusy
    · next hemit hdrop =>
      obtain ⟨t, hnext, rfl⟩ := Option.map_eq_some_iff.mp h
      refine ⟨s, t, hget, hnext, .inl ⟨rfl, ?_, fun other heq => absurd heq (hdrop other)⟩⟩
      cases l <;> first | rfl | exact absurd rfl (hemit _)

theorem perm_eraseP {A : Type*} {q : A → Bool} {l : List A} {a : A} (h : l.find? q = some a) :
    (a :: l.eraseP q).Perm l := by
  induction l with
  | nil => cases h
  | cons first rest ih =>
    rw [List.find?_cons] at h
    split at h
    · next hq =>
      cases Option.some.inj h
      rw [List.eraseP_cons_of_pos hq]
    · next hq =>
      rw [List.eraseP_cons_of_neg (by simp [hq])]
      exact (List.Perm.swap first a _).trans ((ih h).cons first)

theorem images_append (l l' : List Emission) :
    images place (l ++ l') = images place l ++ images place l' := by
  simp [images]

theorem countP_images_perm (p : AgentDomainEvent → Bool) {l l' : List Emission} (h : l.Perm l') :
    (images place l).countP p = (images place l').countP p :=
  ((h.filter _).filterMap _).countP_eq p

inductive FollowerStep (job : LiveJob) : Option Follower → Follower → Prop
  | connected : FollowerStep job none ⟨[], none, [], false⟩
  | replayedEvent (history : List Piece) (received : List (Handed JobEventFrame))
      (event : WorkflowDomainEvent) :
      FollowerStep job (some ⟨history, none, received, false⟩)
        ⟨history ++ [.workflow event], none, received, false⟩
  | replayedSession (history : List Piece) (received : List (Handed JobEventFrame)) (place : ℕ)
      (s : Session) : job.sessions[place]? = some s →
      FollowerStep job (some ⟨history, none, received, false⟩)
        ⟨history ++ [.session place s.recovered (persisted s.log)], none, received, false⟩
  | subscribed (history : List Piece) (received : List (Handed JobEventFrame)) :
      job.jobActor = true →
      FollowerStep job (some ⟨history, none, received, false⟩)
        ⟨history, some job.logs.sent.length, [], false⟩
  | refused (history : List Piece) (received : List (Handed JobEventFrame)) :
      FollowerStep job (some ⟨history, none, received, false⟩) ⟨history, none, [], true⟩
  | received (history : List Piece) (cursor next : ℕ) (received : List (Handed JobEventFrame))
      (handed : Handed JobEventFrame) : job.logs.recv cursor = some (handed, next) →
      FollowerStep job (some ⟨history, some cursor, received, false⟩)
        ⟨history, some next, received ++ [handed], false⟩
  | ended (history : List Piece) (cursor : ℕ) (received : List (Handed JobEventFrame)) :
      job.logs.recv cursor = none → job.closed = true →
      FollowerStep job (some ⟨history, some cursor, received, false⟩)
        ⟨history, some cursor, received, true⟩

inductive Stepped (job : LiveJob) : LiveJob → Prop
  | session (place : ℕ) (s t : Session) (l : StreamLabel) : job.sessions[place]? = some s →
      StreamedRuns.next s l = some t → hands s l = [] →
      (∀ run, l = .drop run → job.busy place run = false) → Stepped job (job.setSession place t)
  | emitted (place : ℕ) (s t : Session) (run : ℕ) (event : AgentEvent) :
      job.sessions[place]? = some s → StreamedRuns.next s (.emit run) = some t →
      nextEvent s run = some event → job.busy place run = false →
      Stepped job { job.setSession place t with
        publishing := job.publishing ++ [⟨place, run, event⟩] }
  | spawned (setup : SessionLifetime.Setup) (recovered : AgentState) : job.workflow = true →
      Stepped job { job with sessions := job.sessions ++ [spawned setup recovered] }
  | published (place run : ℕ) (e : Emission) :
      job.publishing.find? (Emission.comesFrom place run) = some e →
      Stepped job
        { job with
          publishing := job.publishing.eraseP (Emission.comesFrom place run)
          published := job.published ++ [e]
          logs := match frame job.jobId e with
            | some f => job.logs.send f
            | none => job.logs }
  | jobActorGone : Stepped job { job with jobActor := false }
  | workflowGone : Stepped job { job with workflow := false }
  | follower (follower : ℕ) (f : Follower) : FollowerStep job (job.followers follower) f →
      Stepped job (job.setFollower follower f)

theorem replay_cases {follower : ℕ} {piece : Piece} (h : job.replay follower piece = some job') :
    ∃ history received, job.followers follower = some ⟨history, none, received, false⟩ ∧
      job' = job.setFollower follower ⟨history ++ [piece], none, received, false⟩ := by
  unfold LiveJob.replay at h
  split at h
  · next history received hf => exact ⟨history, received, hf, (Option.some.inj h).symm⟩
  · cases h

theorem next_cases {l : LogLabel} (h : LogStreams.next job l = some job') : Stepped job job' := by
  cases l with
  | session place label =>
    obtain ⟨s, t, hget, hnext, ⟨rfl, hhands, hdrop⟩ | ⟨run, event, rfl, hevent, hbusy, rfl⟩⟩ :=
      stepSession_cases h
    · exact .session place s t label hget hnext hhands hdrop
    · exact .emitted place s t run event hget hnext hevent hbusy
  | spawn setup recovered =>
    simp only [LogStreams.next] at h
    split at h
    · next hworkflow =>
      cases h
      exact .spawned setup recovered hworkflow
    · cases h
  | publish place run =>
    obtain ⟨e, hfind, rfl⟩ := Option.map_eq_some_iff.mp h
    exact .published place run e hfind
  | jobActorGone =>
    cases h
    exact .jobActorGone
  | workflowGone =>
    cases h
    exact .workflowGone
  | connect follower =>
    simp only [LogStreams.next] at h
    split at h
    · cases h
    · next hnone =>
      cases h
      refine .follower follower _ ?_
      rw [Option.not_isSome_iff_eq_none.mp hnone]
      exact .connected
  | replayEvent follower event =>
    obtain ⟨history, received, hf, rfl⟩ := replay_cases h
    exact .follower follower _ (hf ▸ .replayedEvent history received event)
  | replaySession follower place =>
    obtain ⟨s, hget, h⟩ := Option.bind_eq_some_iff.mp h
    obtain ⟨history, received, hf, rfl⟩ := replay_cases h
    exact .follower follower _ (hf ▸ .replayedSession history received place s hget)
  | subscribe follower =>
    simp only [LogStreams.next, LiveJob.subscribe] at h
    split at h
    · next history received hf =>
      cases h
      refine .follower follower _ ?_
      rw [hf]
      split_ifs with hactor
      · exact .subscribed history received hactor
      · exact .refused history received
    · cases h
  | receive follower =>
    simp only [LogStreams.next, LiveJob.receive] at h
    split at h
    · next history cursor received hf =>
      split at h
      · next handed next hrecv =>
        cases h
        exact .follower follower _ (hf ▸ .received history cursor next received handed hrecv)
      · next hrecv =>
        split at h
        · next hclosed =>
          cases h
          exact .follower follower _ (hf ▸ .ended history cursor received hrecv hclosed)
        · cases h
    · cases h

theorem Inv.launched (jobId : String) : Inv (LogStreams.launched jobId) where
  logged := rfl
  single := List.nodup_nil
  opened := fun _ h => by cases h
  drained := fun _ h => by cases h
  journaled := fun _ _ _ _ h => by simp [LogStreams.launched] at h
  seen := fun _ _ _ _ h => by cases h

/-- A step that adds nothing to the sessions but one that is spawned, and emits nothing. -/
theorem Inv.unchanged (h : Inv job) (hlogs : job'.logs = job.logs) (hjobId : job'.jobId = job.jobId)
    (hpublishing : job'.publishing = job.publishing) (hpublished : job'.published = job.published)
    (hsessions : job'.sessions = job.sessions)
    (hfollowers : ∀ follower f, job'.followers follower = some f →
      ∀ place recovered events, .session place recovered events ∈ f.history →
        (∃ earlier, job.followers follower = some earlier ∧
          .session place recovered events ∈ earlier.history) ∨
        ∃ s, job.sessions[place]? = some s ∧ events = persisted s.log) : Inv job' where
  logged := by rw [hlogs, hpublished, hjobId, h.logged]
  single := by rw [hpublishing]; exact h.single
  opened := by rw [hpublishing, hsessions]; exact h.opened
  drained := by rw [hsessions]; exact h.drained
  journaled := by
    rw [hsessions]
    simpa only [handedOn, hpublished, hpublishing] using h.journaled
  seen := by
    intro p hp follower f hf place recovered events hmem
    rw [handedOn, hpublished, hpublishing]
    rcases hfollowers follower f hf place recovered events hmem with
      ⟨earlier, hearlier, hmem⟩ | ⟨s, hget, rfl⟩
    · exact h.seen p hp follower earlier hearlier place recovered events hmem
    · refine Nat.le_trans ?_ (h.journaled p hp place s hget)
      unfold held
      omega

theorem Inv.follower (h : Inv job) {follower : ℕ} {f : Follower}
    (hstep : FollowerStep job (job.followers follower) f) : Inv (job.setFollower follower f) := by
  refine h.unchanged rfl rfl rfl rfl rfl (fun other g hg place recovered events hmem => ?_)
  by_cases hsame : other = follower
  · subst hsame
    obtain rfl : f = g := by simpa [LiveJob.setFollower] using hg
    generalize hbefore : job.followers other = before at hstep
    cases hstep with
    | connected => cases hmem
    | replayedEvent history received event =>
      left
      exact ⟨_, rfl, by simpa using hmem⟩
    | replayedSession history received place' s hget =>
      rcases List.mem_append.mp hmem with hmem | hmem
      · exact .inl ⟨_, rfl, hmem⟩
      · cases List.mem_singleton.mp hmem
        exact .inr ⟨s, hget, rfl⟩
    | subscribed | refused | received | ended => exact .inl ⟨_, rfl, hmem⟩
  · have hold : job.followers other = some g := by
      simpa [LiveJob.setFollower, Function.update_of_ne hsame] using hg
    exact .inl ⟨g, hold, hmem⟩

/-- A step of a session whose sinks are not between two sends, or are not dropped. -/
theorem opened_set (h : Inv job) {s t : Session} {l : StreamLabel}
    (hget : job.sessions[place]? = some s) (hnext : StreamedRuns.next s l = some t)
    (hdrop : ∀ run, l = .drop run → job.busy place run = false) :
    ∀ e ∈ job.publishing, ∃ s r, (job.sessions.set place t)[e.session]? = some s ∧
      s.runs[e.run]? = some r ∧ r.sinkOpen = true := by
  intro e he
  obtain ⟨u, r, hu, hr, hopen⟩ := h.opened e he
  by_cases hsame : place = e.session
  · subst hsame
    obtain rfl : s = u := Option.some.inj (hget.symm.trans hu)
    have hlt := (List.getElem?_eq_some_iff.mp hget).1
    have hkeeps : l ≠ .drop e.run := by
      intro hl
      have hbusy : job.busy e.session e.run = true := busy_iff.mpr (List.mem_map.mpr ⟨e, he, rfl⟩)
      rw [hdrop e.run hl] at hbusy
      cases hbusy
    obtain ⟨r', hr', hopen'⟩ := open_step hnext hr hopen hkeeps
    exact ⟨t, r', List.getElem?_set_self hlt, hr', hopen'⟩
  · exact ⟨u, r, by rw [List.getElem?_set_ne hsame, hu], hr, hopen⟩

theorem drained_set (h : Inv job) {s t : Session} {l : StreamLabel}
    (hget : job.sessions[place]? = some s) (hnext : StreamedRuns.next s l = some t) :
    ∀ u ∈ job.sessions.set place t, Drained u := by
  intro u hu
  rcases List.mem_or_eq_of_mem_set hu with hu | rfl
  · exact h.drained u hu
  · exact (h.drained s (List.mem_of_getElem? hget)).step hnext

theorem getElem?_set_cases {A : Type*} {l : List A} {i j : ℕ} {a b : A}
    (h : (l.set i a)[j]? = some b) : (i = j ∧ a = b) ∨ l[j]? = some b := by
  rw [List.getElem?_set] at h
  split_ifs at h with hij hlt
  · exact .inl ⟨hij, Option.some.inj h⟩
  · exact .inr h

theorem Inv.session (h : Inv job) {s t : Session} {l : StreamLabel}
    (hget : job.sessions[place]? = some s) (hnext : StreamedRuns.next s l = some t)
    (hhands : hands s l = []) (hdrop : ∀ run, l = .drop run → job.busy place run = false) :
    Inv (job.setSession place t) where
  logged := h.logged
  single := h.single
  opened := opened_set h hget hnext hdrop
  drained := drained_set h hget hnext
  journaled := by
    intro p hp other u hu
    rcases getElem?_set_cases hu with ⟨rfl, rfl⟩ | hu
    · have hheld := held_step hp hnext
      rw [hhands, List.countP_nil] at hheld
      exact hheld.trans (h.journaled p hp place s hget)
    · exact h.journaled p hp other u hu
  seen := h.seen

theorem images_own (place run : ℕ) (event : AgentEvent) :
    images place [⟨place, run, event⟩] = (coarseEvent event).toList := by
  simp only [images, List.filter_cons, beq_self_eq_true, if_true, List.filter_nil,
    List.filterMap_cons, List.filterMap_nil]
  cases coarseEvent event <;> rfl

theorem Inv.emitted (h : Inv job) {s t : Session} {event : AgentEvent}
    (hget : job.sessions[place]? = some s) (hnext : StreamedRuns.next s (.emit run) = some t)
    (hevent : nextEvent s run = some event) (hbusy : job.busy place run = false) :
    Inv { job.setSession place t with
      publishing := job.publishing ++ [⟨place, run, event⟩] } := by
  have hhanded (other : ℕ) (p : AgentDomainEvent → Bool) :
      (images other (job.published ++ (job.publishing ++ [⟨place, run, event⟩]))).countP p =
        (images other (handedOn job)).countP p +
          (images other [⟨place, run, event⟩]).countP p := by
    rw [← List.append_assoc, images_append, List.countP_append]
    rfl
  have hkeeps : ∀ k, StreamLabel.emit run = .drop k → job.busy place k = false :=
    fun _ hl => by cases hl
  refine ⟨h.logged, ?_, ?_, drained_set h hget hnext, ?_, ?_⟩
  · have hfresh : (place, run) ∉ job.publishing.map Emission.origin := by
      rw [← busy_iff, hbusy]
      exact Bool.false_ne_true
    rw [List.map_append, List.nodup_append]
    refine ⟨h.single, List.nodup_singleton _, fun a ha b hb heq => hfresh ?_⟩
    have horigin : a = (place, run) := heq.trans (List.mem_singleton.mp hb)
    exact horigin ▸ ha
  · intro e he
    rcases List.mem_append.mp he with he | he
    · exact opened_set h hget hnext hkeeps e he
    · obtain rfl := List.mem_singleton.mp he
      have hlt := (List.getElem?_eq_some_iff.mp hget).1
      obtain ⟨r, hr, hopen⟩ := (h.drained s (List.mem_of_getElem? hget)).nextEvent hevent
      obtain ⟨r', hr', hopen'⟩ := open_step hnext hr hopen (fun hl => by cases hl)
      exact ⟨t, r', List.getElem?_set_self hlt, hr', hopen'⟩
  · intro p hp other u hu
    refine Nat.le_trans ?_ (Nat.le_of_eq (hhanded other p).symm)
    rcases getElem?_set_cases hu with ⟨rfl, rfl⟩ | hu
    · have hheld := held_step hp hnext
      have hhands : hands s (.emit run) = (coarseEvent event).toList := by simp [hands, hevent]
      rw [hhands, ← images_own place run event] at hheld
      exact hheld.trans (Nat.add_le_add_right (h.journaled p hp place s hget) _)
    · exact (h.journaled p hp other u hu).trans (Nat.le_add_right _ _)
  · intro p hp follower f hf other recovered events hmem
    refine Nat.le_trans ?_ (Nat.le_of_eq (hhanded other p).symm)
    exact (h.seen p hp follower f hf other recovered events hmem).trans (Nat.le_add_right _ _)

theorem Inv.published (h : Inv job) {e : Emission}
    (hfind : job.publishing.find? (Emission.comesFrom place run) = some e) :
    Inv { job with
      publishing := job.publishing.eraseP (Emission.comesFrom place run)
      published := job.published ++ [e]
      logs := match LogStreams.frame job.jobId e with
        | some f => job.logs.send f
        | none => job.logs } := by
  have hhanded (other : ℕ) (p : AgentDomainEvent → Bool) :
      (images other (job.published ++ [e] ++
          job.publishing.eraseP (Emission.comesFrom place run))).countP p =
        (images other (handedOn job)).countP p := by
    refine countP_images_perm p ?_
    rw [List.append_assoc, List.singleton_append]
    exact (perm_eraseP hfind).append_left _
  refine ⟨?_, ?_, ?_, h.drained, ?_, ?_⟩
  · rw [List.filterMap_append, List.filterMap_cons, List.filterMap_nil]
    cases hframe : LogStreams.frame job.jobId e with
    | none => simpa using h.logged
    | some f => simp [h.logged, Channel.send]
  · exact h.single.sublist ((List.eraseP_sublist ..).map _)
  · exact fun other hother => h.opened other (List.mem_of_mem_eraseP hother)
  · intro p hp other u hu
    refine Nat.le_trans ?_ (Nat.le_of_eq (hhanded other p).symm)
    exact h.journaled p hp other u hu
  · intro p hp follower f hf other recovered events hmem
    refine Nat.le_trans ?_ (Nat.le_of_eq (hhanded other p).symm)
    exact h.seen p hp follower f hf other recovered events hmem

theorem Inv.spawned (h : Inv job) (setup : SessionLifetime.Setup) (recovered : AgentState) :
    Inv { job with sessions := job.sessions ++ [StreamedRuns.spawned setup recovered] } := by
  refine ⟨h.logged, h.single, ?_, ?_, ?_, h.seen⟩
  · intro e he
    obtain ⟨s, r, hget, hr, hopen⟩ := h.opened e he
    have hlt := (List.getElem?_eq_some_iff.mp hget).1
    exact ⟨s, r, by rw [List.getElem?_append_left hlt, hget], hr, hopen⟩
  · intro s hs
    rcases List.mem_append.mp hs with hs | hs
    · exact h.drained s hs
    · rw [List.mem_singleton.mp hs]
      exact fun _ hr => by cases hr
  · intro p hp place s hget
    rcases Nat.lt_or_ge place job.sessions.length with hlt | hge
    · rw [List.getElem?_append_left hlt] at hget
      exact h.journaled p hp place s hget
    · rw [List.getElem?_append_right hge, List.getElem?_singleton] at hget
      split_ifs at hget
      cases Option.some.inj hget
      exact Nat.zero_le _

theorem Inv.step (h : Inv job) (hstep : Stepped job job') : Inv job' := by
  cases hstep with
  | session place s t l hget hnext hhands hdrop => exact h.session hget hnext hhands hdrop
  | emitted place s t run event hget hnext hevent hbusy => exact h.emitted hget hnext hevent hbusy
  | spawned setup recovered _ => exact h.spawned setup recovered
  | published place run e hfind => exact h.published hfind
  | jobActorGone | workflowGone =>
    exact h.unchanged rfl rfl rfl rfl rfl (fun _ f hf _ _ _ hmem => .inl ⟨f, hf, hmem⟩)
  | follower follower f hf => exact h.follower hf

def Closed (job : LiveJob) : Prop :=
  job.jobActor = false ∧ job.workflow = false ∧ ∀ s ∈ job.sessions, Gone s

theorem closed_iff : job.closed = true ↔ Closed job := by
  simp [LiveJob.closed, Closed, Gone, and_assoc]

theorem Closed.publishing (hclosed : Closed job) (h : Inv job) : job.publishing = [] := by
  rw [List.eq_nil_iff_forall_not_mem]
  intro e he
  obtain ⟨s, r, hget, hr, hopen⟩ := h.opened e he
  rw [(hclosed.2.2 s (List.mem_of_getElem? hget)).2 r (List.mem_of_getElem? hr)] at hopen
  cases hopen

/-- A log that is closed stays closed, and nothing more is sent to it. -/
theorem Closed.step (hclosed : Closed job) (h : Inv job) (hstep : Stepped job job') :
    Closed job' ∧ job'.logs = job.logs := by
  obtain ⟨hactor, hworkflow, hgone⟩ := id hclosed
  have hset {place : ℕ} {s t : Session} {l : StreamLabel} (hget : job.sessions[place]? = some s)
      (hnext : StreamedRuns.next s l = some t) : ∀ u ∈ job.sessions.set place t, Gone u := by
    intro u hu
    rcases List.mem_or_eq_of_mem_set hu with hu | rfl
    · exact hgone u hu
    · exact (hgone s (List.mem_of_getElem? hget)).step hnext
  cases hstep with
  | session place s t l hget hnext _ _ => exact ⟨⟨hactor, hworkflow, hset hget hnext⟩, rfl⟩
  | emitted place s t run event hget hnext hevent _ =>
    have hs := List.mem_of_getElem? hget
    obtain ⟨r, hr, hopen⟩ := (h.drained s hs).nextEvent hevent
    rw [(hgone s hs).2 r (List.mem_of_getElem? hr)] at hopen
    cases hopen
  | spawned setup recovered hlive =>
    rw [hworkflow] at hlive
    cases hlive
  | published place run e hfind =>
    rw [hclosed.publishing h] at hfind
    cases hfind
  | jobActorGone => exact ⟨⟨rfl, hworkflow, hgone⟩, rfl⟩
  | workflowGone => exact ⟨⟨hactor, rfl, hgone⟩, rfl⟩
  | follower => exact ⟨⟨hactor, hworkflow, hgone⟩, rfl⟩

/-- A connection that subscribed when `start` frames were sent and `published` was
published, with the history it has replayed before. -/
structure Following (follower start : ℕ) (history : List Piece) (published : List Emission)
    (job : LiveJob) : Prop where
  since : published <+: job.published
  follows : ∃ cursor received ended,
    job.followers follower = some ⟨history, some cursor, received, ended⟩ ∧
      Follows job.logs start cursor received ∧
      (ended = true → Closed job ∧ cursor = job.logs.sent.length)

theorem recv_none {A : Type*} {c : Channel A} {cursor : ℕ} (hle : cursor ≤ c.sent.length)
    (h : c.recv cursor = none) : cursor = c.sent.length := by
  unfold Channel.recv at h
  split at h
  · cases h
  · have hnone := List.getElem?_eq_none_iff.mp (Option.map_eq_none_iff.mp h)
    omega

theorem Following.step {follower start : ℕ} {history : List Piece} {published : List Emission}
    (hf : Following follower start history published job) (h : Inv job)
    (hstep : Stepped job job') : Following follower start history published job' := by
  obtain ⟨hsince, cursor, received, ended, hfollower, hfollows, hended⟩ := hf
  have hkeeps (hfollowers : job'.followers follower = job.followers follower)
      (hlogs : job'.logs = job.logs) : ∃ cursor received ended,
      job'.followers follower = some ⟨history, some cursor, received, ended⟩ ∧
        Follows job'.logs start cursor received ∧
        (ended = true → Closed job' ∧ cursor = job'.logs.sent.length) := by
    refine ⟨cursor, received, ended, hfollowers.trans hfollower, hlogs ▸ hfollows, fun hend => ?_⟩
    obtain ⟨hclosed, hall⟩ := hended hend
    exact ⟨(hclosed.step h hstep).1, hlogs ▸ hall⟩
  cases hstep with
  | session | emitted | spawned | jobActorGone | workflowGone => exact ⟨hsince, hkeeps rfl rfl⟩
  | published place run e hfind =>
    refine ⟨hsince.trans (List.prefix_append _ _), ?_⟩
    have hopen : ended = false := by
      by_contra hend
      rw [(hended (by simpa using hend)).1.publishing h] at hfind
      cases hfind
    refine ⟨cursor, received, ended, hfollower, ?_, fun hend => ?_⟩
    · cases frame job.jobId e with
      | none => exact hfollows
      | some f => exact hfollows.send f
    · rw [hopen] at hend
      cases hend
  | follower other f hf =>
    refine ⟨hsince, ?_⟩
    by_cases hsame : other = follower
    · subst hsame
      rw [hfollower] at hf
      have hnow : (job.setFollower other f).followers other = some f := by
        simp [LiveJob.setFollower]
      cases hf with
      | received _ _ next _ handed hrecv =>
        exact ⟨next, _, false, hnow, (hfollows.recv hrecv).1, fun hend => by cases hend⟩
      | ended _ _ _ hrecv hclosed =>
        exact ⟨cursor, received, true, hnow, hfollows, fun _ =>
          ⟨closed_iff.mp hclosed, recv_none hfollows.next_le hrecv⟩⟩
    · refine hkeeps ?_ rfl
      simp [LiveJob.setFollower, Function.update_of_ne (Ne.symm hsame)]

theorem Stepped.jobId (h : Stepped job job') : job'.jobId = job.jobId := by
  cases h <;> rfl

theorem reachable_inv {jobId : String}
    (hrun : Machine.Run LogStreams.next Machine.free (launched jobId) job) :
    Inv job ∧ job.jobId = jobId :=
  hrun.invariant (fun job => Inv job ∧ job.jobId = jobId)
    (fun _ _ _ h _ hnext => ⟨h.1.step (next_cases hnext), (next_cases hnext).jobId.trans h.2⟩)
    ⟨Inv.launched jobId, rfl⟩

/-- What a subscription to a live job becomes, whatever happens later. -/
theorem reachable_following {s s' t : LiveJob} {follower : ℕ} (hinv : Inv s)
    (hlive : s.jobActor = true) (hsubscribe : LogStreams.next s (.subscribe follower) = some s')
    (hlater : Machine.Run LogStreams.next Machine.free s' t) :
    Inv t ∧ t.jobId = s.jobId ∧ ∃ f, s.followers follower = some f ∧
      Following follower s.logs.sent.length f.history s.published t := by
  have hstep := next_cases hsubscribe
  have hfollowing : ∃ f, s.followers follower = some f ∧
      Following follower s.logs.sent.length f.history s.published s' := by
    change s.subscribe follower = some s' at hsubscribe
    unfold LiveJob.subscribe at hsubscribe
    split at hsubscribe
    · next history received hf =>
      rw [hlive, if_pos rfl] at hsubscribe
      obtain rfl := Option.some.inj hsubscribe
      refine ⟨_, hf, List.prefix_rfl, s.logs.sent.length, [], false, ?_, Follows.subscribed _, ?_⟩
      · simp [LiveJob.setFollower]
      · exact fun hend => by cases hend
    · cases hsubscribe
  obtain ⟨f, hf, hfollowing⟩ := hfollowing
  obtain ⟨hinv', hjobId, hfollowing'⟩ := hlater.invariant
    (fun job => Inv job ∧ job.jobId = s.jobId ∧
      Following follower s.logs.sent.length f.history s.published job)
    (fun _ _ _ h _ hnext => ⟨h.1.step (next_cases hnext), (next_cases hnext).jobId.trans h.2.1,
      h.2.2.step h.1 (next_cases hnext)⟩) ⟨hinv.step hstep, hstep.jobId, hfollowing⟩
  exact ⟨hinv', hjobId, f, hf, hfollowing'⟩

end Jobs

/-- The live tail accounts, in order and each once, for the frames sent since the connection
subscribed, up to those it has not read yet. It ends only when all are read and nobody is
left who could send; then the last frames are among those it was sent. -/
theorem tail_accounted (jobId : String) {s s' t : LiveJob} {follower : ℕ}
    (hrun : Machine.Run LogStreams.next Machine.free (launched jobId) s)
    (hlive : s.jobActor = true) (hsubscribe : LogStreams.next s (.subscribe follower) = some s')
    (hlater : Machine.Run LogStreams.next Machine.free s' t) :
    ∃ f after read unread, t.followers follower = some f ∧ t.published = s.published ++ after ∧
      after.filterMap (frame jobId) = read ++ unread ∧ Accounts f.received read ∧
      (f.ended = true → unread = [] ∧ Closed t ∧
        read.drop (read.length - logBroadcastCapacity) <:+
          DaemonConnection.liveFrames f.received) := by
  obtain ⟨hinv, hjobId⟩ := reachable_inv hrun
  obtain ⟨hinv', hsame, f, hf, ⟨after, hafter⟩, cursor, received, ended, hnow, hfollows, hended⟩ :=
    reachable_following hinv hlive hsubscribe hlater
  have hsent : t.logs.sent = s.logs.sent ++ after.filterMap (frame jobId) := by
    rw [hinv'.logged, hinv.logged, ← hafter, hsame, hjobId, List.filterMap_append]
  obtain ⟨more, hmore⟩ := Nat.exists_eq_add_of_le hfollows.start_le
  have hread : (t.logs.sent.take cursor).drop s.logs.sent.length =
      (after.filterMap (frame jobId)).take more := by
    rw [hsent, hmore, List.take_length_add_append, List.drop_left]
  refine ⟨_, after, (after.filterMap (frame jobId)).take more,
    (after.filterMap (frame jobId)).drop more, hnow, hafter.symm,
    (List.take_append_drop _ _).symm, hread ▸ hfollows.accounts, fun hend => ?_⟩
  obtain ⟨hclosed, hall⟩ := hended hend
  have hlength : (after.filterMap (frame jobId)).length = more := by
    rw [hall, hsent, List.length_append] at hmore
    omega
  refine ⟨List.drop_eq_nil_of_le (Nat.le_of_eq hlength), hclosed, ?_⟩
  have hlast := (hall ▸ hfollows).drained
  have hcapacity : t.logs.capacity = logBroadcastCapacity := by rw [hinv'.logged]
  have holdest : max s.logs.sent.length t.logs.oldest =
      s.logs.sent.length + (more - logBroadcastCapacity) := by
    rw [Channel.oldest, ← hall, hmore, hcapacity]
    omega
  rwa [holdest, hsent, List.drop_length_add_append, ← hlength,
    ← List.take_of_length_le (Nat.le_of_eq hlength)] at hlast

def replayedAtOnce : List LogLabel :=
  [.spawn SessionLifetime.plainSetup ⟨[]⟩, .session 0 (.recover "m0" SessionLifetime.textOnly),
    .session 0 (.tell (.run "go")), .session 0 (.handle "m1" SessionLifetime.textOnly),
    .session 0 (.persist true), .session 0 (.emit 0), .publish 0 0, .session 0 (.emit 0),
    .publish 0 0, .session 0 (.emit 0), .publish 0 0, .session 0 (.emit 0), .publish 0 0,
    .session 0 (.emit 0), .session 0 (.receive 0), .session 0 (.forward 0),
    .session 0 (.receive 0), .session 0 (.forward 0),
    .session 0 (.handle "p0" SessionLifetime.textOnly), .session 0 (.persist true),
    .session 0 (.handle "p1" SessionLifetime.textOnly), .session 0 (.persist true), .connect 3,
    .replaySession 3 0]

def replayed : LiveJob := Machine.final LogStreams.next Machine.free (launched "7") replayedAtOnce

def subscribed : LiveJob := (LogStreams.next replayed (.subscribe 3)).get (by decide +kernel)

def received : LiveJob :=
  Machine.final LogStreams.next Machine.free subscribed [.publish 0 0, .receive 3]

theorem replayed_run : Machine.Run LogStreams.next Machine.free (launched "7") replayed :=
  Machine.run_final replayedAtOnce (by decide +kernel)

theorem received_run : Machine.Run LogStreams.next Machine.free subscribed received :=
  Machine.run_final _ (by decide +kernel)

def finished : LiveJob :=
  Machine.final LogStreams.next Machine.free subscribed
    [.publish 0 0, .receive 3, .session 0 (.drop 0), .session 0 (.receive 0),
      .session 0 (.report 0), .session 0 (.handle "p2" SessionLifetime.textOnly), .jobActorGone,
      .workflowGone, .receive 3]

theorem finished_run : Machine.Run LogStreams.next Machine.free subscribed finished :=
  Machine.run_final _ (by decide +kernel)

theorem tail_accounted_finished :
    ∃ f after read, finished.followers 3 = some f ∧ f.ended = true ∧
      finished.published = replayed.published ++ after ∧ after.filterMap (frame "7") = read ∧
      Accounts f.received read ∧ Closed finished ∧
      read.drop (read.length - logBroadcastCapacity) <:+
        DaemonConnection.liveFrames f.received := by
  obtain ⟨f, after, read, unread, hf, hafter, hread, haccounts, hend⟩ :=
    tail_accounted "7" replayed_run (by decide +kernel) (Option.some_get _).symm finished_run
  have hended : (finished.followers 3).all Follower.ended = true := by decide +kernel
  rw [hf, Option.all_some] at hended
  obtain ⟨rfl, hclosed, hlast⟩ := hend hended
  exact ⟨f, after, read, hf, hended, hafter, hread.trans (List.append_nil _), haccounts, hclosed,
    hlast⟩

/-- A list of events that sinks hand on is among others if each kind is. -/
theorem filter_subperm {events others : List AgentDomainEvent}
    (h : ∀ p, Streamed p → events.countP p ≤ others.countP p) :
    (events.filter streamed).Subperm others := by
  classical
  refine List.subperm_ext_iff.mpr (fun event hmem => ?_)
  have hstreamed := (List.mem_filter.mp hmem).2
  have hkind : Streamed (· == event) := fun e he => by
    rwa [eq_of_beq he]
  calc (events.filter streamed).count event
    _ ≤ events.count event := (List.filter_sublist).count_le event
    _ ≤ others.count event := h _ hkind

/-- Of what the history of a connection shows nothing is published after it subscribed, except
events that were between the two sends of their sink then, one of a run at most. -/
theorem history_not_repeated (jobId : String) {s s' t : LiveJob} {follower : ℕ}
    (hrun : Machine.Run LogStreams.next Machine.free (launched jobId) s)
    (hlive : s.jobActor = true) (hsubscribe : LogStreams.next s (.subscribe follower) = some s')
    (hlater : Machine.Run LogStreams.next Machine.free s' t) :
    ∃ f after, t.followers follower = some f ∧ t.published = s.published ++ after ∧
      (DaemonConnection.liveFrames f.received).Sublist (after.filterMap (frame jobId)) ∧
      (s.publishing.map Emission.origin).Nodup ∧
      ∀ place recovered events, .session place recovered events ∈ f.history →
        (events.filter streamed).Subperm (images place (s.published ++ s.publishing)) := by
  obtain ⟨hinv, hjobId⟩ := reachable_inv hrun
  obtain ⟨hinv', hsame, f, hf, ⟨after, hafter⟩, cursor, received, ended, hnow, hfollows, -⟩ :=
    reachable_following hinv hlive hsubscribe hlater
  refine ⟨_, after, hnow, hafter.symm, ?_, hinv.single, fun place recovered events hmem => ?_⟩
  · have hsent : t.logs.sent = s.logs.sent ++ after.filterMap (frame jobId) := by
      rw [hinv'.logged, hinv.logged, ← hafter, hsame, hjobId, List.filterMap_append]
    have hread := hfollows.accounts.sublist.trans
      ((List.take_sublist cursor t.logs.sent).drop s.logs.sent.length)
    rwa [hsent, List.drop_left] at hread
  · exact filter_subperm (fun p hp => hinv.seen p hp follower f hf place recovered events hmem)

theorem history_not_repeated_received :
    ∃ f after, received.followers 3 = some f ∧
      received.published = replayed.published ++ after ∧
      (DaemonConnection.liveFrames f.received).Sublist (after.filterMap (frame "7")) ∧
      ∀ place recovered events, .session place recovered events ∈ f.history →
        (events.filter streamed).Subperm
          (images place (replayed.published ++ replayed.publishing)) := by
  obtain ⟨f, after, hf, hafter, hlive, -, hhistory⟩ :=
    history_not_repeated "7" replayed_run (by decide +kernel) (Option.some_get _).symm received_run
  exact ⟨f, after, hf, hafter, hlive, hhistory⟩

end October.FollowedLogs
