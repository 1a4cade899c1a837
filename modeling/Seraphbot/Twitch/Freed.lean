import Seraphbot.Twitch.Lifetimes

/-!
# Freed memory

When is it safe to destroy an `EventSub`?  A step of a run leaves the objects alone, makes
the next one or takes the last one away (`Does`), and only the last two can leave a
coroutine behind that uses memory after it was freed.

* No freed memory is used, now or next, exactly when objects are only destroyed while no
  coroutine is going to use them (`visits_harmless_iff`).
* The service does not know.  When the chat has just been connected the seven
  subscriptions are in flight, whether or not anything is going to use a pointer of the
  service, and a disconnect is not safe (`not_harmless_of_connected`).
-/

namespace Seraphbot.Lifetimes

open Twitch

/-! ## What a step can do -/

section

variable {t : Lifetimes} {k : Nat}

theorem alive_iff : t.alive k = true ↔ t.service.eventsub.isSome = true ∧ k = t.made := by
  simp [alive]

theorem mem_users : k ∈ t.users ↔
    ⟨k, true⟩ ∈ t.awaited ∨ ∃ c ∈ t.detached, c.pc.busy = true ∧ c.owner = k := by
  simp only [users, List.mem_append, List.mem_map, List.mem_filter, and_assoc]
  refine or_congr_left ⟨?_, fun h ↦ ⟨_, h, rfl, rfl⟩⟩
  rintro ⟨⟨_, _⟩, ha, rfl, rfl⟩
  exact ha

theorem mem_users_of_detached {c : Detached} (hc : c ∈ t.detached) (hb : c.pc.busy = true) :
    c.owner ∈ t.users :=
  mem_users.mpr (.inr ⟨c, hc, hb, rfl⟩)

end

/-- The step ends the life of the object there is, if there is one. -/
def Destroys (t : Lifetimes) : Event → Prop
  | .service .disconnect => True
  | .service .connectToChat => t.service.state = .loggedIn
  | _ => False

/-- A step that leaves the objects alone: it uses what it was going to use, and new
coroutines are for the object that is there. -/
structure Onward (t t' : Lifetimes) : Prop where
  made : t'.made = t.made
  eventsub : t'.service.eventsub = t.service.eventsub
  users : t'.service.crashed = false → ∀ k ∈ t'.users, k ∈ t.users ∨ t.alive k = true
  freed : t'.freed = true → t.freed = true ∨ ∃ k ∈ t.users, t.alive k = false

/-- What a step can do to the objects. -/
inductive Does (t : Lifetimes) : Event → Lifetimes → Prop where
  | onward {ev : Event} {t' : Lifetimes} (hev : ¬ Destroys t ev) (h : Onward t t') : Does t ev t'
  /-- The next object is made, and `connect` is called on it. -/
  | make (hst : t.service.state = .loggedIn) {t' : Lifetimes}
      (hc : t'.service.crashed = t.service.crashed) (he : t'.service.eventsub.isSome = true)
      (hm : t'.made = t.made + 1) (hu : ∀ k, k ∈ t'.users ↔ k ∈ t.users ∨ k = t.made + 1)
      (hf : t'.freed = t.freed) : Does t (.service .connectToChat) t'
  | disconnect : Does t (.service .disconnect) { t with service := t.service.disconnect.1 }

section

variable {t : Lifetimes}

/-- What is used is what was going to be used. -/
theorem freed_use {k : Nat} (hk : k ∈ t.users) (h : (t.use k).freed = true) :
    t.freed = true ∨ ∃ k ∈ t.users, t.alive k = false := by
  rcases Bool.or_eq_true_iff.mp h with hf | hdead
  · exact .inl hf
  · exact .inr ⟨k, hk, by simpa using hdead⟩

theorem Onward.of_lists {service : TwitchService} {awaited : List Awaited}
    {detached : List Detached} {freed : Bool}
    (he : service.eventsub = t.service.eventsub)
    (ha : service.crashed = false → ∀ k, ⟨k, true⟩ ∈ awaited →
      ⟨k, true⟩ ∈ t.awaited ∨ t.alive k = true)
    (hd : service.crashed = false → ∀ c ∈ detached, c.pc.busy = true →
      c.owner ∈ t.users ∨ t.alive c.owner = true)
    (hf : freed = true → t.freed = true ∨ ∃ k ∈ t.users, t.alive k = false) :
    Onward t { t with service, awaited, detached, freed } where
  made := rfl
  eventsub := he
  users hc k hk := by
    rcases mem_users.mp hk with hk | ⟨c, hc', hb, rfl⟩
    · exact (ha hc k hk).imp_left fun h ↦ mem_users.mpr (.inl h)
    · exact hd hc c hc' hb
  freed := hf

/-- Only the calls of `connectToChat` and the service change. -/
theorem Onward.of_awaited {service : TwitchService} {awaited : List Awaited} {freed : Bool}
    (he : service.eventsub = t.service.eventsub)
    (ha : service.crashed = false → ∀ k, ⟨k, true⟩ ∈ awaited →
      ⟨k, true⟩ ∈ t.awaited ∨ t.alive k = true)
    (hf : freed = true → t.freed = true ∨ ∃ k ∈ t.users, t.alive k = false) :
    Onward t { t with service, awaited, freed } :=
  .of_lists he ha (fun _ _ hc hb ↦ .inl (mem_users_of_detached hc hb)) hf

/-- Only the spawned coroutines change. -/
theorem Onward.of_detached {detached : List Detached} {freed : Bool}
    (hd : ∀ c ∈ detached, c.pc.busy = true → c.owner ∈ t.users ∨ t.alive c.owner = true)
    (hf : freed = true → t.freed = true ∨ ∃ k ∈ t.users, t.alive k = false) :
    Onward t { t with detached, freed } :=
  .of_lists rfl (fun _ _ hk ↦ .inl hk) (fun _ ↦ hd) hf

theorem Onward.of_service {service : TwitchService} (he : service.eventsub = t.service.eventsub) :
    Onward t { t with service } :=
  .of_awaited he (fun _ _ hk ↦ .inl hk) .inl

theorem Onward.refl (t : Lifetimes) : Onward t t := .of_service rfl

theorem mem_users_of_set {i : Nat} {c c' : Detached}
    (hb : c.pc.busy = true → c.owner ∈ t.users ∨ t.alive c.owner = true)
    (hc' : c' ∈ t.detached.set i c) (hb' : c'.pc.busy = true) :
    c'.owner ∈ t.users ∨ t.alive c'.owner = true := by
  rcases List.mem_or_eq_of_mem_set hc' with h | rfl
  · exact .inl (mem_users_of_detached h hb')
  · exact hb hb'

theorem mem_users_of_eraseIdx {i : Nat} {c' : Detached} (hc' : c' ∈ t.detached.eraseIdx i)
    (hb' : c'.pc.busy = true) : c'.owner ∈ t.users ∨ t.alive c'.owner = true :=
  .inl (mem_users_of_detached (List.mem_of_mem_eraseIdx hc') hb')

theorem mem_users_of_append {cs : List Detached} {c' : Detached}
    (hcs : ∀ c ∈ cs, c.pc.busy = true → t.alive c.owner = true)
    (hc' : c' ∈ t.detached ++ cs) (hb' : c'.pc.busy = true) :
    c'.owner ∈ t.users ∨ t.alive c'.owner = true := by
  rcases List.mem_append.mp hc' with h | h
  · exact .inl (mem_users_of_detached h hb')
  · exact .inr (hcs c' h hb')

/-- A spawned coroutine that goes on. -/
theorem resume_onward (i : Nat) (ok : Bool) (t : Lifetimes) : Onward t (t.resume i ok) := by
  have herase : ∀ c ∈ t.detached.eraseIdx i, c.pc.busy = true →
      c.owner ∈ t.users ∨ t.alive c.owner = true := fun _ ↦ mem_users_of_eraseIdx
  fun_cases resume i ok t with
  | case1 => exact .refl t
  | case2 k hi | case9 k hi =>
      have hk : k ∈ t.users := mem_users_of_detached (List.mem_of_getElem? hi) rfl
      exact .of_detached herase (freed_use hk)
  | case3 k hi | case4 k hi | case8 k hi =>
      have hk : k ∈ t.users := mem_users_of_detached (List.mem_of_getElem? hi) rfl
      exact .of_detached (fun _ ↦ mem_users_of_set fun _ ↦ .inl hk) (freed_use hk)
  | case5 | case6 | case7 => exact .of_detached herase .inl

theorem arrive_onward (i : Nat) (t : Lifetimes) : Onward t (t.arrive i) := by
  fun_cases arrive i t with
  | case1 k _ halive => exact .of_detached (fun _ ↦ mem_users_of_set fun _ ↦ .inr halive) .inl
  | case2 | case3 => exact .refl t

theorem startRead_onward (t : Lifetimes) : Onward t t.startRead := by
  have he : t.service.startRead.1.eventsub = t.service.eventsub :=
    (act_aside .startRead trivial).1
  fun_cases startRead t with
  | case1 =>
      refine .of_lists he (fun _ _ hk ↦ .inl hk) (fun _ _ ↦ mem_users_of_append ?_) .inl
      -- it does not use the object before a message is there
      simp [DetachedPc.busy]
  | case2 => exact .of_service he

/-- The object that `connect` was called on is used until `connect` returns. -/
theorem mem_users_of_connect {i : Nat} {a : Awaited}
    (hfits : List.Forall₂ Fits t.service.connects t.awaited)
    (ha : t.awaited[i]? = some a) (hpc : t.service.connects[i]? = some .connect) :
    a.owner ∈ t.users := by
  obtain ⟨pc, hpc', hfit⟩ := exists_getElem?_of_forall₂ hfits ha
  obtain rfl : pc = .connect := Option.some.inj (hpc'.symm.trans hpc)
  have hb : a.busy = true := hfit
  refine mem_users.mpr (.inl ?_)
  rw [← hb]
  exact List.mem_of_getElem? ha

theorem mem_awaited_of_set {i k k' : Nat} (h : ⟨k', true⟩ ∈ t.awaited.set i ⟨k, false⟩) :
    ⟨k', true⟩ ∈ t.awaited := by
  rcases List.mem_or_eq_of_mem_set h with h | h
  · exact h
  · cases h

theorem goOn_onward (i : Nat) (hfits : List.Forall₂ Fits t.service.connects t.awaited) :
    Onward t (t.goOn i) := by
  fun_cases goOn i t with
  | case1 a ha hpc =>
      exact .of_awaited rfl (fun _ _ hk ↦ .inl hk) (freed_use (mem_users_of_connect hfits ha hpc))
  | case2 k hk =>
      have hk' : k ∈ t.users := mem_users.mpr (.inl (List.mem_of_getElem? hk))
      exact .of_awaited rfl (fun _ _ h ↦ .inl (mem_awaited_of_set h)) (freed_use hk')
  | case3 => exact .refl t

/-- The pointers are there when a call of `connectToChat` goes on. -/
theorem alive_of_resumeConnect {i : Nat} {pc : ConnectPc} (hw : t.service.Wired)
    (hpc : t.service.connects[i]? = some pc)
    (hc : (t.service.resumeConnect i (.returned ())).1.crashed = false) :
    t.alive t.made = true := by
  refine alive_iff.mpr ⟨?_, rfl⟩
  by_contra he
  have hnull : t.service.eventsub = none := by simpa using he
  have hread : t.service.chatRead = none := by simpa [hnull] using hw.chatRead
  cases pc <;> simp [TwitchService.resumeConnect, hpc, hnull, hread, TwitchService.crash] at hc

theorem resumeConnect_onward (i : Nat) (r : Resumption Unit) (hw : t.service.Wired)
    (hfits : List.Forall₂ Fits t.service.connects t.awaited) :
    Onward t (t.resumeConnect i r) := by
  have he : ∀ r, (t.service.resumeConnect i r).1.eventsub = t.service.eventsub :=
    resumeConnect_eventsub i
  fun_cases resumeConnect i r t with
  | case1 =>
      exact .of_awaited (he _) (fun _ _ hk ↦ .inl (List.mem_of_mem_eraseIdx hk)) .inl
  | case2 a _ ha hpc =>
      refine .of_lists (he _) (fun _ _ h ↦ .inl (mem_awaited_of_set h)) (fun hc _ ↦ ?_)
        (freed_use (mem_users_of_connect hfits ha hpc))
      refine mem_users_of_append ?_
      simpa using fun _ ↦ alive_of_resumeConnect hw hpc hc
  | case3 _ _ _ hpc =>
      refine .of_awaited (he _) (fun hc k hk ↦ ?_) .inl
      refine (List.mem_or_eq_of_mem_set hk).imp_right ?_
      rintro ⟨⟩
      exact alive_of_resumeConnect hw hpc hc
  | case5 _ _ _ hpc =>
      refine .of_lists (he _) (fun _ _ hk ↦ .inl (List.mem_of_mem_eraseIdx hk)) (fun hc _ ↦ ?_) .inl
      refine mem_users_of_append fun c hmem _ ↦ ?_
      obtain ⟨_, _, rfl⟩ := List.mem_map.mp hmem
      exact alive_of_resumeConnect hw hpc hc
  | case4 | case6 => exact .refl t

/-- Every step does one of these things. -/
theorem act_does (h : Linked t) (hc : t.service.crashed = false) (ev : Event) :
    Does t ev (t.act ev) := by
  cases ev with
  | service e =>
      cases e with
      | connectToChat =>
          change Does t _ t.connectToChat
          fun_cases connectToChat t with
          | case1 _ hst =>
              refine .onward hst (.of_service ?_)
              simp +zetaDelta [TwitchService.connectToChat, hst]
          | case2 _ hst =>
              have hst' : t.service.state = .loggedIn := not_not.mp hst
              refine .make hst' ?_ ?_ rfl (fun k ↦ ?_) rfl
              · simp +zetaDelta [TwitchService.connectToChat, hst', TwitchService.setState,
                  TwitchService.setupChatServices]
              · simp +zetaDelta [TwitchService.connectToChat, hst', TwitchService.setState,
                  TwitchService.setupChatServices]
              · simp [mem_users, or_right_comm]
      | resumeConnect i r => exact .onward id (resumeConnect_onward i r h.wired (h.fits hc))
      | startRead => exact .onward id (startRead_onward t)
      | disconnect => exact .disconnect
      | startLogin | resumeLogin | sendMessage | resumeSend =>
          refine .onward id (.of_service (act_aside _ ?_).1)
          trivial
  | goOn i => exact .onward id (goOn_onward i (h.fits hc))
  | arrive i => exact .onward id (arrive_onward i t)
  | resume i ok => exact .onward id (resume_onward i ok t)

end

/-! ## Freed memory -/

/-- No freed memory has been used, and the next step, whichever it is, does not use any. -/
def Harmless (t : Lifetimes) : Prop :=
  t.freed = false ∧ ∀ ev, (machine.step t ev).1.freed = false

/-- An object is destroyed only while nothing is going to use it. -/
def Patient (t : Lifetimes) (ev : Event) : Prop :=
  t.service.crashed = false → Destroys t ev → t.users = []

section

variable {t : Lifetimes}

/-- Whoever is going to use an object that is gone can do so next. -/
theorem exists_freed_of_detached (hc : t.service.crashed = false) (hf : t.freed = false)
    {c : Detached} (hmem : c ∈ t.detached) (hb : c.pc.busy = true)
    (hdead : t.alive c.owner = false) : ∃ ev, (machine.step t ev).1.freed = true := by
  obtain ⟨k, pc⟩ := c
  have huse : (t.use k).freed = true := by simp [use, hdead]
  obtain ⟨i, hi⟩ := List.getElem?_of_mem hmem
  refine ⟨.resume i true, ?_⟩
  rw [step_of_running hc hf]
  cases pc with
  | start | subscribe | posting | arrived => simpa [act, resume, hi] using huse
  | waiting | reading => cases hb

theorem exists_freed (h : Linked t) (hc : t.service.crashed = false) (hf : t.freed = false)
    {k : Nat} (hk : k ∈ t.users) (hdead : t.alive k = false) :
    ∃ ev, (machine.step t ev).1.freed = true := by
  rcases mem_users.mp hk with hk | ⟨c, hmem, hb, rfl⟩
  · obtain ⟨i, hi⟩ := List.getElem?_of_mem hk
    obtain ⟨pc, hpc, hfit⟩ := exists_getElem?_of_forall₂ (h.fits hc) hi
    have huse : (t.use k).freed = true := by simp [use, hdead]
    refine ⟨.goOn i, ?_⟩
    rw [step_of_running hc hf]
    cases pc with
    | connect => simpa [act, goOn, hpc, hi] using huse
    | timer => cases hfit
    | requestSubscription => simpa [act, goOn, hpc, hi] using huse
  · exact exists_freed_of_detached hc hf hmem hb hdead

/-- A state is harmless exactly when the objects that are going to be used are alive. -/
theorem harmless_iff (h : Linked t) :
    Harmless t ↔
      t.freed = false ∧ (t.service.crashed = false → ∀ k ∈ t.users, t.alive k = true) := by
  constructor
  · rintro ⟨hf, hnext⟩
    refine ⟨hf, fun hc k hk ↦ ?_⟩
    by_contra hdead
    obtain ⟨ev, hev⟩ := exists_freed h hc hf hk (by simpa using hdead)
    rw [hnext ev] at hev
    cases hev
  · rintro ⟨hf, halive⟩
    refine ⟨hf, fun ev ↦ ?_⟩
    cases hc : t.service.crashed with
    | true => rw [step_of_stopped (by simp [hc]), hf]
    | false =>
        rw [step_of_running hc hf]
        have hdoes := act_does h hc ev
        generalize t.act ev = t' at hdoes ⊢
        cases hdoes with
        | onward _ honward =>
            by_contra hne
            rcases honward.freed (by simpa using hne) with hfreed | ⟨k, hk, hdead⟩
            · simp [hf] at hfreed
            · simp [halive hc k hk] at hdead
        | make _ _ _ _ _ hfreed => rw [hfreed, hf]
        | disconnect => exact hf

theorem step_harmless_iff (t : Lifetimes) (ev : Event) (h : Linked t) (hq : Harmless t) :
    Harmless (machine.step t ev).1 ↔ Patient t ev := by
  have hfreed := hq.2 ev
  rw [harmless_iff (step_linked t ev h), and_iff_right hfreed]
  obtain ⟨hf, halive⟩ := (harmless_iff h).mp hq
  cases hc : t.service.crashed with
  | true =>
      rw [step_of_stopped (by simp [hc])]
      simp [hc, Patient]
  | false =>
      have halive := halive hc
      rw [step_of_running hc hf]
      simp only [Patient, hc, forall_const]
      have hdoes := act_does h hc ev
      generalize t.act ev = t' at hdoes ⊢
      cases hdoes with
      | onward hev honward =>
          refine iff_of_true (fun hc' k hk ↦ ?_) (fun h ↦ absurd h hev)
          have hk' : t.alive k = true := (honward.users hc' k hk).elim (halive k) id
          rwa [alive_iff, honward.eventsub, honward.made, ← alive_iff]
      | make hst hc' he hm hu =>
          constructor
          · -- the object that was in use is not the last one any more
            intro h _
            refine List.eq_nil_iff_forall_not_mem.mpr fun k hk ↦ ?_
            have hold := (alive_iff.mp (halive k hk)).2
            have hnew := (alive_iff.mp (h (hc'.trans hc) k ((hu k).mpr (.inl hk)))).2
            omega
          · intro h _ k hk
            rw [hu, h hst] at hk
            exact alive_iff.mpr ⟨he, hm ▸ hk.resolve_left List.not_mem_nil⟩
      | disconnect =>
          constructor
          · intro h _
            refine List.eq_nil_iff_forall_not_mem.mpr fun k hk ↦ ?_
            exact absurd (alive_iff.mp (h hc k hk)).1 (by simp [TwitchService.disconnect])
          · intro h _ k hk
            have hk : k ∈ t.users := hk
            rw [h trivial] at hk
            exact absurd hk List.not_mem_nil

end

/-- **When no coroutine outlives its object.**  In every run of a new service no memory of
an `EventSub` is used after it was freed, and none can be used next, whichever step that
is, if and only if the run destroys an `EventSub` only while no coroutine is going to use
one. -/
theorem visits_harmless_iff (config : ClientConfig) (es : List Event) :
    machine.Visits Harmless { service := { config } } es ↔
      machine.Along Patient { service := { config } } es := by
  have hlinked : Linked { service := { config } } :=
    ⟨⟨rfl, rfl, fun h ↦ by cases h⟩, fun _ ↦ .nil⟩
  refine Machine.visits_iff_along step_linked step_harmless_iff hlinked ?_
  exact (harmless_iff hlinked).mpr ⟨rfl, fun _ ↦ List.forall_mem_nil _⟩

/-! ## Right after the chat was connected -/

/-- Only a call of `connectToChat` connects the chat, with its last segment. -/
theorem state_of_act {s : TwitchService} {e : TwitchService.Event}
    (he : ∀ i r, e ≠ .resumeConnect i r) (h : (s.act e).1.state = .chatConnected) :
    s.state = .chatConnected := by
  cases e with
  | startLogin =>
      change s.startLogin.1.state = _ at h
      revert h
      fun_cases TwitchService.startLogin s with
      | case1 => exact id
      | case2 => rintro ⟨⟩
  | resumeLogin i r =>
      change (s.resumeLogin i r).1.state = _ at h
      revert h
      fun_cases TwitchService.resumeLogin i r s with
      | case1 | case3 => exact id
      | case2 | case4 => rintro ⟨⟩
  | connectToChat =>
      change s.connectToChat.1.state = _ at h
      revert h
      fun_cases TwitchService.connectToChat s with
      | case1 => exact id
      | case2 => rintro ⟨⟩
  | resumeConnect i r => exact absurd rfl (he i r)
  | startRead =>
      change s.startRead.1.state = _ at h
      revert h
      fun_cases TwitchService.startRead s <;> exact id
  | sendMessage message =>
      change (s.sendMessage message).1.state = _ at h
      revert h
      fun_cases TwitchService.sendMessage message s <;> exact id
  | resumeSend i r =>
      change (s.resumeSend i r).1.state = _ at h
      revert h
      fun_cases TwitchService.resumeSend i r s <;> exact id
  | disconnect => cases h

theorem resumeConnect_of_connected {s : TwitchService} {i : Nat} {r : Resumption Unit}
    (hbefore : s.state ≠ .chatConnected) (hafter : (s.resumeConnect i r).1.state = .chatConnected) :
    s.connects[i]? = some .requestSubscription ∧ r = .returned () ∧
      (s.resumeConnect i r).1.crashed = s.crashed := by
  revert hafter
  fun_cases TwitchService.resumeConnect i r s with
  | case2 => rintro ⟨⟩
  | case8 _ hpc => exact fun _ ↦ ⟨hpc, rfl, rfl⟩
  | _ => exact fun hafter ↦ absurd hafter hbefore

section

variable {t : Lifetimes}

/-- The step that connects the chat leaves subscriptions behind that have not begun. -/
theorem resumeConnect_spawns {i : Nat} {r : Resumption Unit} (hc : t.service.crashed = false)
    (hbefore : t.service.state ≠ .chatConnected)
    (hafter : (t.resumeConnect i r).service.state = .chatConnected) :
    (t.resumeConnect i r).service.crashed = false ∧ (t.resumeConnect i r).freed = t.freed ∧
      ⟨t.made, .subscribe⟩ ∈ (t.resumeConnect i r).detached := by
  revert hafter
  fun_cases resumeConnect i r t with
  | case1 =>
      intro hafter
      obtain ⟨-, hr, -⟩ := resumeConnect_of_connected hbefore hafter
      cases hr
  | case2 _ _ _ hpc | case3 _ _ _ hpc =>
      intro hafter
      have hpc' := (resumeConnect_of_connected hbefore hafter).1
      cases hpc.symm.trans hpc'
  | case5 =>
      intro hafter
      obtain ⟨-, -, hcrashed⟩ := resumeConnect_of_connected hbefore hafter
      refine ⟨hcrashed.trans hc, rfl, List.mem_append_right _ ?_⟩
      exact List.mem_map_of_mem List.mem_cons_self
  | case4 | case6 => exact fun hafter ↦ absurd hafter hbefore

theorem act_of_connected {ev : Event} (hc : t.service.crashed = false)
    (hbefore : t.service.state ≠ .chatConnected)
    (hafter : (t.act ev).service.state = .chatConnected) :
    (t.act ev).service.crashed = false ∧ (t.act ev).freed = t.freed ∧
      ⟨t.made, .subscribe⟩ ∈ (t.act ev).detached := by
  rcases act_service t ev with heq | ⟨e, rfl, heq⟩
  · exact absurd (heq ▸ hafter) hbefore
  · cases e with
    | resumeConnect i r => exact resumeConnect_spawns hc hbefore hafter
    | _ => exact absurd (state_of_act (by simp) (heq ▸ hafter)) hbefore

end

/-- **Disconnecting a chat that has just been connected.**  Whatever happened before: after
the step that connects the chat a call of `disconnect` leaves a coroutine behind that can
use freed memory. -/
theorem not_harmless_of_connected {t : Lifetimes} {ev : Event}
    (hbefore : t.service.state ≠ .chatConnected)
    (hafter : (machine.step t ev).1.service.state = .chatConnected) :
    ¬ Harmless (machine.run t [ev, .service .disconnect]) := by
  obtain ⟨hc, hf⟩ := (stopped_or_running t).resolve_left fun hstop ↦ by
    rw [step_of_stopped hstop] at hafter
    exact hbefore hafter
  rw [step_of_running hc hf] at hafter
  obtain ⟨hc', hf', hmem⟩ := act_of_connected hc hbefore hafter
  rw [Machine.run_cons, Machine.run_cons, Machine.run_nil, step_of_running hc hf,
    step_of_running hc' (hf'.trans hf)]
  rintro ⟨-, hnext⟩
  obtain ⟨ev', hev'⟩ := exists_freed_of_detached (t := (t.act ev).act (.service .disconnect))
    hc' (hf'.trans hf) hmem rfl rfl
  rw [hnext ev'] at hev'
  cases hev'

/-- The chat is being connected, and its subscription was answered. -/
def answered : List Event :=
  TwitchService.loggedIn.map .service ++
    [.service .connectToChat, .goOn 0, .service (.resumeConnect 0 (.returned ())),
      .service .startRead, .resume 0 true, .service (.resumeConnect 0 (.returned ())), .goOn 0]

theorem not_harmless_answered :
    ¬ Harmless (machine.run (machine.run { service := {} } answered)
      [.service (.resumeConnect 0 (.returned ())), .service .disconnect]) :=
  not_harmless_of_connected (by decide) (by decide)

end Seraphbot.Lifetimes
