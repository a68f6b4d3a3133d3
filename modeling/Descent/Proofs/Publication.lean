import Mathlib.Data.List.Perm.Basic
import Mathlib.Data.List.Range
import Descent.Pattern.Compiled
import Descent.Workspace

/-!
# Publication in the order of requests

Threads share a workspace.  A request draws a ticket and is pending until its compilation is
complete; then the compilation is published.  Readers look at what is shown, and a reader that
panics leaves a mark on the lock.  Each of these is one step (`Workspace.Step`), and they may follow
each other in any order (`Workspace.Run`).

* What is published last by the order of requests is what is shown, whatever was published after it
  (`Workspace.IsLatest.publish`).
* A step keeps the tickets of pending and completed requests apart, and with them the numbers up to
  that of the last request (`Workspace.Consistent.step`).
* So after every run the compilation of the latest completed request is shown, and after all
  requests are completed that of the last one (`Workspace.publishes_latest`).
-/

namespace Descent

/-! ### Locks -/

/-- A value behind a lock.  A thread that panics while it holds the lock leaves a mark. -/
structure Guarded (α : Type) where
  value : α
  poisoned : Bool

namespace Guarded

variable {α : Type}

/-- Takes the lock: the value is an error if the lock is marked. -/
def take (g : Guarded α) : Except α α := if g.poisoned then .error g.value else .ok g.value

/-- The value, whether the lock is marked or not. -/
def get (g : Guarded α) : α :=
  match g.take with
  | .ok value | .error value => value

/-- Changes the value. -/
def set (g : Guarded α) (value : α) : Guarded α := { g with value }

/-- Gives the lock back after a look at the value, in a panic or not. -/
def release (g : Guarded α) (panics : Bool) : Guarded α :=
  { g with poisoned := g.poisoned || panics }

@[simp]
theorem get_eq (g : Guarded α) :
  g.get = g.value
  := by
  rw [get, take]
  cases g.poisoned <;> rfl

end Guarded

namespace Workspace

/-! ### Steps -/

/-- A description to compile, and the ticket of its request. -/
structure Job where
  ticket : Nat
  text : String
  file : String
  deriving DecidableEq

/-- The compilation of a job. -/
def Job.compile [Engine] (j : Job) (fs : FileSystem) (o : Options) : Published :=
  ⟨j.ticket, .ofText fs o j.text j.file⟩

/-- A workspace that threads share: tickets are drawn outside of the lock. -/
structure Shared where
  options : Options
  tickets : Nat
  shown : Guarded (Option Published)
  /-- The jobs that are not completed. -/
  pending : List Job

namespace Shared

/-- The shared workspace that shows nothing. -/
def start (o : Options) : Shared := ⟨o, 0, ⟨none, false⟩, []⟩

/-- The workspace as a thread finds it that takes the lock. -/
def workspace (s : Shared) : Workspace := ⟨s.options, s.tickets, s.shown.get⟩

/-- The workspace after a request: its job has the next ticket and is pending. -/
def request (s : Shared) (text file : String) : Shared :=
  let (ticket, w) := s.workspace.request
  { s with tickets := w.tickets, pending := s.pending ++ [⟨ticket, text, file⟩] }

/-- The workspace after the compilation of a job was published. -/
def complete (s : Shared) (j : Job) (p : Published) : Shared :=
  { s with
    shown := s.shown.set (s.workspace.publish p.ticket p.compilation).published
    pending := s.pending.erase j }

/-- The workspace after a look at what is shown. -/
def look (s : Shared) (panics : Bool) : Shared := { s with shown := s.shown.release panics }

@[simp]
theorem published_workspace (s : Shared) :
  s.workspace.published = s.shown.value
  := s.shown.get_eq

theorem tickets_request (s : Shared) (text file : String) :
  (s.request text file).tickets = s.tickets + 1
  := rfl

theorem pending_request (s : Shared) (text file : String) :
  (s.request text file).pending = s.pending ++ [⟨s.tickets + 1, text, file⟩]
  := rfl

end Shared

/-- What happens at a shared workspace. -/
inductive Event where
  /-- A description is to be compiled, at once or in the background. -/
  | request (text file : String)
  /-- A compilation is complete and gets published. -/
  | complete (p : Published)
  /-- A reader sees what is shown, and may panic meanwhile. -/
  | read (seen : Option Compilation) (panics : Bool)

/-- A step of a shared workspace.  A job may be completed at any time after its request, and then it
finds any file system. -/
inductive Step [Engine] : Shared → Event → Shared → Prop
  | request (s : Shared) (text file : String) :
      Step s (.request text file) (s.request text file)
  | complete (s : Shared) (fs : FileSystem) {j : Job} (hj : j ∈ s.pending) :
      Step s (.complete (j.compile fs s.options)) (s.complete j (j.compile fs s.options))
  | read (s : Shared) (panics : Bool) :
      Step s (.read s.workspace.current? panics) (s.look panics)

/-- The events from the beginning up to a state. -/
inductive Run [Engine] (o : Options) : List Event → Shared → Prop
  | start : Run o [] (.start o)
  | step {es : List Event} {s s' : Shared} {e : Event} (h : Run o es s) (hs : Step s e s') :
      Run o (es ++ [e]) s'

/-- The descriptions that were to be compiled, in order of the requests. -/
def requests (es : List Event) : List (String × String) :=
  es.filterMap fun
    | .request text file => some (text, file)
    | _ => none

/-- What was completed, in order of the completions. -/
def completions (es : List Event) : List Published :=
  es.filterMap fun
    | .complete p => some p
    | _ => none

theorem requests_concat (es : List Event) (e : Event) :
  requests (es ++ [e]) = requests es ++ requests [e]
  := List.filterMap_append

theorem completions_concat (es : List Event) (e : Event) :
  completions (es ++ [e]) = completions es ++ completions [e]
  := List.filterMap_append

/-! ### The latest compilation -/

/-- What is shown after compilations were completed: the one with the greatest ticket, or nothing if
there were none. -/
structure IsLatest (shown : Option Published) (ps : List Published) : Prop where
  none_iff : shown = none ↔ ps = []
  greatest : ∀ p ∈ shown, p ∈ ps ∧ ∀ q ∈ ps, q.ticket ≤ p.ticket

/-- A compilation of the request with its ticket. -/
def Published.IsOf [Engine] (o : Options) (rs : List (String × String)) (p : Published) : Prop :=
  ∃ text file fs, 0 < p.ticket ∧ rs[p.ticket - 1]? = some (text, file) ∧
    p.compilation = .ofText fs o text file

variable {w : Workspace} {ps : List Published} {o : Options} {es : List Event} {e : Event}
  {s s' : Shared}

theorem Published.IsOf.append [Engine] {rs : List (String × String)} {p : Published}
    (h : p.IsOf o rs) (rs' : List (String × String)) :
  p.IsOf o (rs ++ rs')
  := by
  obtain ⟨text, file, fs, hpos, hrequest, hp⟩ := h
  refine ⟨text, file, fs, hpos, ?_, hp⟩
  rw [List.getElem?_append_left (List.getElem?_eq_some_iff.mp hrequest).1, hrequest]

/-- Publishing keeps the latest compilation. -/
theorem IsLatest.publish (h : IsLatest w.published ps) (ticket : Nat) (c : Compilation) :
  IsLatest (w.publish ticket c).published (ps ++ [⟨ticket, c⟩])
  := by
  rw [Workspace.publish]
  split
  case h_1 hnone =>
    rw [h.none_iff.mp hnone]
    constructor
    · simp
    · rintro _ ⟨⟩
      simp
  case h_2 p hp =>
    obtain ⟨hmem, hle⟩ := h.greatest p hp
    split
    case isTrue hlt =>
      constructor
      · simp [hp]
      · intro p' hp'
        obtain rfl : p = p' := Option.some_inj.mp (hp.symm.trans hp')
        refine ⟨List.mem_append_left _ hmem, ?_⟩
        intro q hq
        obtain hq | hq := List.mem_append.mp hq
        · apply hle q hq
        · rw [List.mem_singleton.mp hq]
          apply hlt.le
    case isFalse hge =>
      constructor
      · simp
      · rintro _ ⟨⟩
        refine ⟨by simp, ?_⟩
        intro q hq
        obtain hq | hq := List.mem_append.mp hq
        · exact (hle q hq).trans (Nat.le_of_not_lt hge)
        · rw [List.mem_singleton.mp hq]

/-- Publishing never goes back to an earlier ticket. -/
theorem exists_ticket_le_publish (w : Workspace) (ticket : Nat) (c : Compilation)
    {p : Published} (hp : p ∈ w.published) :
  ∃ p' ∈ (w.publish ticket c).published, p.ticket ≤ p'.ticket
  := by
  rw [publish]
  split
  case h_1 hnone =>
    rw [hnone] at hp
    cases hp
  case h_2 q hq =>
    obtain rfl : q = p := Option.some_inj.mp (hq.symm.trans hp)
    split
    case isTrue => exact ⟨q, hp, le_refl _⟩
    case isFalse hge => exact ⟨_, rfl, Nat.le_of_not_lt hge⟩

/-- No step goes back to an earlier ticket. -/
theorem Step.exists_ticket_le [Engine] (hs : Step s e s') {p : Published}
    (hp : p ∈ s.workspace.published) :
  ∃ p' ∈ s'.workspace.published, p.ticket ≤ p'.ticket
  := by
  cases hs with
  | request text file => exact ⟨p, hp, le_refl _⟩
  | complete fs hj =>
    rw [Shared.published_workspace]
    apply exists_ticket_le_publish _ _ _ hp
  | read panics =>
    rw [Shared.published_workspace] at hp ⊢
    exact ⟨p, hp, le_refl _⟩

/-! ### What steps keep -/

/-- What holds after events that led to a state. -/
structure Consistent [Engine] (o : Options) (es : List Event) (s : Shared) : Prop where
  options : s.options = o
  tickets : s.tickets = (requests es).length
  /-- Every ticket belongs to one request, which is pending or completed. -/
  numbers : (s.pending.map (·.ticket) ++ (completions es).map (·.ticket)).Perm
    (List.range' 1 s.tickets)
  pending : ∀ j ∈ s.pending, 0 < j.ticket ∧ (requests es)[j.ticket - 1]? = some (j.text, j.file)
  completed : ∀ p ∈ completions es, p.IsOf o (requests es)
  latest : IsLatest s.workspace.published (completions es)
  /-- A reader saw the latest compilation. -/
  reads : ∀ es₁ seen panics es₂, es = es₁ ++ .read seen panics :: es₂ →
    ∃ shown, seen = shown.map (·.compilation) ∧ IsLatest shown (completions es₁)

theorem consistent_start [Engine] (o : Options) :
  Consistent o [] (.start o)
  := by
  constructor
  case numbers => exact List.Perm.nil
  case latest => exact ⟨by simp [Shared.start, Shared.workspace, completions], by rintro _ ⟨⟩⟩
  case reads => simp
  all_goals simp [Shared.start, requests, completions]

/-- What readers saw before an event that is not a look, they saw before the next one. -/
theorem Consistent.reads_concat [Engine] (h : Consistent o es s)
    (he : ∀ seen panics, e = .read seen panics → seen = s.workspace.current?) :
  ∀ es₁ seen panics es₂, es ++ [e] = es₁ ++ .read seen panics :: es₂ →
    ∃ shown, seen = shown.map (·.compilation) ∧ IsLatest shown (completions es₁)
  := by
  intro es₁ seen panics es₂ heq
  obtain rfl | ⟨es₃, last, rfl⟩ := es₂.eq_nil_or_concat
  · obtain ⟨rfl, hlast⟩ := List.append_inj' heq rfl
    obtain rfl := List.singleton_inj.mp hlast
    exact ⟨_, he seen panics rfl, h.latest⟩
  · rw [List.concat_eq_append, ← List.cons_append, ← List.append_assoc] at heq
    exact h.reads es₁ seen panics es₃ (List.append_inj' heq rfl).1

/-- The tickets of requests that are pending or completed, after one of them is completed. -/
theorem perm_complete {js : List Job} {j : Job} (hj : j ∈ js) (ticketsDone : List Nat) :
  ((js.erase j).map (·.ticket) ++ (ticketsDone ++ [j.ticket])).Perm
    (js.map (·.ticket) ++ ticketsDone)
  := by
  have hjs : (j.ticket :: (js.erase j).map (·.ticket)).Perm (js.map (·.ticket)) :=
    ((List.perm_cons_erase hj).map _).symm
  rw [← List.append_assoc]
  apply (List.perm_append_singleton _ _).trans
  apply hjs.append_right ticketsDone

/-- A request keeps what holds. -/
theorem Consistent.request [Engine] (h : Consistent o es s) (text file : String) :
  Consistent o (es ++ [.request text file]) (s.request text file)
  := by
  have hrequests : requests (es ++ [.request text file]) = requests es ++ [(text, file)] :=
    requests_concat es _
  have hcompletions : completions (es ++ [.request text file]) = completions es :=
    (completions_concat es _).trans (List.append_nil _)
  constructor
  case options => exact h.options
  case tickets => rw [hrequests, List.length_append, ← h.tickets, Shared.tickets_request]; rfl
  case numbers =>
    rw [hcompletions, Shared.tickets_request, Shared.pending_request, List.range'_1_concat,
      Nat.add_comm 1, List.map_append, List.append_assoc]
    apply List.perm_middle.trans
    apply (h.numbers.cons _).trans
    apply (List.perm_append_singleton _ _).symm
  case pending =>
    rw [hrequests, Shared.pending_request]
    intro j hj
    obtain hj | hj := List.mem_append.mp hj
    · obtain ⟨hpos, hj⟩ := h.pending j hj
      refine ⟨hpos, ?_⟩
      rw [List.getElem?_append_left (List.getElem?_eq_some_iff.mp hj).1, hj]
    · obtain rfl := List.mem_singleton.mp hj
      refine ⟨Nat.succ_pos _, ?_⟩
      rw [Nat.add_sub_cancel, h.tickets]
      apply List.getElem?_concat_length
  case completed =>
    rw [hcompletions, hrequests]
    intro p hp
    apply (h.completed p hp).append
  case latest =>
    rw [hcompletions]
    exact h.latest
  case reads => exact h.reads_concat (by rintro _ _ ⟨⟩)

/-- A completion keeps what holds. -/
theorem Consistent.complete [Engine] (h : Consistent o es s) (fs : FileSystem) {j : Job}
    (hj : j ∈ s.pending) :
  Consistent o (es ++ [.complete (j.compile fs s.options)]) (s.complete j (j.compile fs s.options))
  := by
  have hrequests : requests (es ++ [.complete (j.compile fs s.options)]) = requests es :=
    (requests_concat es _).trans (List.append_nil _)
  have hcompletions : completions (es ++ [.complete (j.compile fs s.options)]) =
      completions es ++ [j.compile fs s.options] := completions_concat es _
  constructor
  case options => exact h.options
  case tickets => rw [hrequests]; exact h.tickets
  case numbers =>
    rw [hcompletions, List.map_append]
    exact (perm_complete hj _).trans h.numbers
  case pending =>
    rw [hrequests]
    exact fun k hk => h.pending k (List.mem_of_mem_erase hk)
  case completed =>
    rw [hcompletions, hrequests]
    intro p hp
    obtain hp | hp := List.mem_append.mp hp
    · apply h.completed p hp
    · obtain rfl := List.mem_singleton.mp hp
      obtain ⟨hpos, hj⟩ := h.pending j hj
      exact ⟨j.text, j.file, fs, hpos, hj, by rw [Job.compile, h.options]⟩
  case latest =>
    rw [hcompletions, Shared.published_workspace]
    exact h.latest.publish _ _
  case reads => exact h.reads_concat (by rintro _ _ ⟨⟩)

/-- A look keeps what holds, in a panic or not. -/
theorem Consistent.look [Engine] (h : Consistent o es s) (panics : Bool) :
  Consistent o (es ++ [.read s.workspace.current? panics]) (s.look panics)
  := by
  have hrequests : requests (es ++ [.read s.workspace.current? panics]) = requests es :=
    (requests_concat es _).trans (List.append_nil _)
  have hcompletions : completions (es ++ [.read s.workspace.current? panics]) = completions es :=
    (completions_concat es _).trans (List.append_nil _)
  have hlatest := h.latest
  rw [Shared.published_workspace] at hlatest
  constructor
  case options => exact h.options
  case tickets => rw [hrequests]; exact h.tickets
  case numbers => rw [hcompletions]; exact h.numbers
  case pending => rw [hrequests]; exact h.pending
  case completed => rw [hcompletions, hrequests]; exact h.completed
  case latest => rw [hcompletions, Shared.published_workspace]; exact hlatest
  case reads =>
    apply h.reads_concat
    rintro _ _ ⟨⟩
    rfl

/-- Whatever happened, it holds. -/
theorem Run.consistent [Engine] (h : Run o es s) :
  Consistent o es s
  := by
  induction h with
  | start => apply consistent_start
  | step h hs ih =>
    cases hs with
    | request text file => apply ih.request
    | complete fs hj => apply ih.complete fs hj
    | read panics => apply ih.look

/-! ### What is shown -/

/-- A completion publishes a compilation. -/
theorem Shared.workspace_complete (s : Shared) (j : Job) (p : Published) :
  (s.complete j p).workspace = s.workspace.publish p.ticket p.compilation
  := by
  have hpublish : ∀ w : Workspace, w.publish p.ticket p.compilation =
      { w with published := (w.publish p.ticket p.compilation).published } := by
    intro w
    unfold publish
    split
    · rfl
    · split <;> rfl
  rw [hpublish, workspace, complete, Guarded.get_eq]
  rfl

/-- A compilation without other events in between is a request and its completion. -/
theorem Shared.workspace_complete_request [Engine] (s : Shared) (fs : FileSystem)
    (text file : String) :
  let j : Job := ⟨s.tickets + 1, text, file⟩
  ((s.request text file).complete j (j.compile fs s.options)).workspace =
    (s.workspace.compile fs text file).2
  := by
  intro j
  rw [workspace_complete]
  rfl

/-- What a shared workspace shows after events is in the order of requests. -/
structure Ordered [Engine] (o : Options) (es : List Event) (s : Shared) : Prop where
  /-- The compilation with the greatest ticket is shown. -/
  latest : IsLatest s.workspace.published (completions es)
  /-- No two compilations have the same ticket. -/
  distinct : ((completions es).map (·.ticket)).Nodup
  /-- A compilation is that of the request with its ticket. -/
  isOf : ∀ p ∈ completions es, p.IsOf o (requests es)
  /-- The ticket of what is shown never decreases. -/
  monotone : ∀ e s', Step s e s' → ∀ p ∈ s.workspace.published,
    ∃ p' ∈ s'.workspace.published, p.ticket ≤ p'.ticket
  /-- What a reader sees was the compilation with the greatest ticket. -/
  reads : ∀ es₁ seen panics es₂, es = es₁ ++ .read seen panics :: es₂ →
    ∃ shown, seen = shown.map (·.compilation) ∧ IsLatest shown (completions es₁)
  /-- When all requests are completed, the compilation of the last one is shown. -/
  last : (completions es).length = (requests es).length →
    ∀ text file, (requests es).getLast? = some (text, file) →
      ∃ fs, s.workspace.published = some ⟨(requests es).length, .ofText fs o text file⟩

/-- Whatever is requested, completed and read, in any order and number, a shared workspace shows the
compilation of the latest request that is completed. -/
theorem publishes_latest [Engine] {o : Options} {es : List Event} {s : Shared} (h : Run o es s) :
  Ordered o es s
  := by
  have hs := h.consistent
  have hnodup := hs.numbers.nodup_iff.mpr List.nodup_range'
  constructor
  case latest => exact hs.latest
  case distinct => exact (List.nodup_append.mp hnodup).2.1
  case isOf => exact hs.completed
  case monotone => exact fun e s' hstep p hp => hstep.exists_ticket_le hp
  case reads => exact hs.reads
  case last =>
    intro hall text file hlast
    have hne : requests es ≠ [] := by
      rintro hnil
      rw [hnil] at hlast
      cases hlast
    have hpos : 0 < (requests es).length := List.length_pos_iff.mpr hne
    -- No request is pending, so the last ticket is that of a completion.
    have hlength := hs.numbers.length_eq
    rw [List.length_append, List.length_map, List.length_map, List.length_range', hall,
      hs.tickets] at hlength
    have hpending : s.pending = [] := List.eq_nil_of_length_eq_zero (by omega)
    have hticket : (requests es).length ∈ (completions es).map (·.ticket) := by
      have hperm := hs.numbers
      rw [hpending, List.map_nil, List.nil_append, hs.tickets] at hperm
      apply hperm.mem_iff.mpr
      rw [List.mem_range'_1]
      omega
    obtain ⟨q, hq, hqticket⟩ := List.mem_map.mp hticket
    cases hshown : s.workspace.published with
    | none =>
      rw [hs.latest.none_iff.mp hshown] at hq
      cases hq
    | some p =>
      obtain ⟨hp, hgreatest⟩ := hs.latest.greatest p hshown
      obtain ⟨text', file', fs, hppos, hrequest, hcompilation⟩ := hs.completed p hp
      have hle := hgreatest q hq
      have hlt := (List.getElem?_eq_some_iff.mp hrequest).1
      have hpticket : p.ticket = (requests es).length := by omega
      rw [hpticket, ← List.getLast?_eq_getElem?, hlast] at hrequest
      obtain ⟨rfl, rfl⟩ := Prod.mk.inj (Option.some_inj.mp hrequest)
      use fs
      rw [← hpticket, ← hcompilation]

/-- An older request is completed after a newer one, and after a reader panicked. -/
theorem publishes_latest_afterPanic :
  let o : Options := ⟨⟨"."⟩, ⟨"."⟩⟩
  let older : Job := ⟨1, "Start -> 'o';", "old"⟩
  let newer : Job := ⟨2, "Start -> 'n';", "new"⟩
  let compiled := newer.compile (.bare []) o
  let events : List Event := [.request older.text older.file, .request newer.text newer.file,
    .complete compiled, .read (some compiled.compilation) true,
    .complete (older.compile (.bare []) o)]
  ∃ s, Run o events s ∧ s.shown.poisoned = true ∧ s.workspace.published = some compiled ∧
    Ordered o events s
  := by
  intro o older newer compiled events
  let requested := ((Shared.start o).request older.text older.file).request newer.text newer.file
  let shown := (requested.complete newer compiled).look true
  have hrequested : Run o (events.take 2) requested :=
    (Run.start.step (.request ..)).step (.request ..)
  have hcomplete : Step requested (.complete compiled) (requested.complete newer compiled) :=
    .complete requested (.bare []) (by decide)
  have hrun : Run o events (shown.complete older (older.compile (.bare []) o)) :=
    ((hrequested.step hcomplete).step (.read _ true)).step
      (.complete shown (.bare []) (by decide))
  exact ⟨_, hrun, rfl, rfl, publishes_latest hrun⟩

end Workspace

end Descent
