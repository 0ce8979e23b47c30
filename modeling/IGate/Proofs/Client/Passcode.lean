import IGate.Proofs.Client.Masked

/-! Two clients that differ in their passcodes and meet the same cannot be told apart, except by the
login lines that they send. -/

namespace IGate

open Trace

def Event.isSent : Event → Bool
  | .sent _ => true
  | _ => false

namespace Trace

def notices (es : Trace) : List Notice := es.flatMap fun | .log n => [n] | _ => []

def answers (es : Trace) : List (Bytes × Bool) :=
  es.flatMap fun | .accepted frame => [(frame, true)] | .rejected frame => [(frame, false)] | _ => []

/-- Whether the login on the latest connection has been answered. -/
def answered (up : Bool) : Event → Bool
  | .established => true
  | .opened => false
  | _ => up

/-- A trace without the bytes that go out before the login has been answered. -/
def veiled (up : Bool) : Trace → Trace
  | [] => []
  | e :: es => (if up || !e.isSent then [e] else []) ++ veiled (answered up e) es

section
variable {up : Bool} {es : Trace}

theorem veiled_append (up : Bool) (es more : Trace) :
    veiled up (es ++ more) = veiled up es ++ veiled (es.foldl answered up) more := by
  induction es generalizing up with
  | nil => rfl
  | cons e es ih => simp only [List.cons_append, veiled, ih, List.append_assoc, List.foldl_cons]

theorem flatMap_veiled {α : Type} (f : Event → List α) (h : ∀ bytes, f (.sent bytes) = [])
    (up : Bool) (es : Trace) : (veiled up es).flatMap f = es.flatMap f := by
  induction es generalizing up with
  | nil => rfl
  | cons e es ih =>
    have hhead : (if up || !e.isSent then [e] else []).flatMap f = f e := by
      cases e with
      | sent bytes => cases up <;> simp [Event.isSent, h]
      | _ => simp [Event.isSent]
    rw [veiled, List.flatMap_append, hhead, ih, List.flatMap_cons]

theorem mem_veiled {e : Event} (he : e.isSent = false) (up : Bool) (es : Trace) :
    e ∈ veiled up es ↔ e ∈ es := by
  induction es generalizing up with
  | nil => rfl
  | cons e' es ih =>
    have hhead : e ∈ (if up || !e'.isSent then [e'] else []) ↔ e = e' := by
      split
      · exact List.mem_singleton
      · next h =>
        refine ⟨nofun, ?_⟩
        rintro rfl
        simp [he] at h
    rw [veiled, List.mem_append, hhead, ih, List.mem_cons]

theorem answered_of_not_mem (he : Event.established ∉ es) (h : es.foldl answered up = true) :
    up = true := by
  induction es generalizing up with
  | nil => exact h
  | cons e es ih =>
    simp only [List.mem_cons, not_or] at he
    have hnext := ih he.2 h
    cases e with
    | established => exact absurd rfl he.1
    | opened => cases hnext
    | _ => exact hnext

theorem foldl_answered_quiet (up : Bool) (es : Trace) :
    (quiet es).foldl answered up = es.foldl answered up := by
  induction es generalizing up with
  | nil => rfl
  | cons e es ih =>
    cases e with
    | log n => rw [quiet_log, ih]; rfl
    | _ => rw [quiet_cons _ _ rfl, List.foldl_cons, List.foldl_cons, ih]

theorem veiled_true (ho : Event.opened ∉ es) : veiled true es = es := by
  induction es with
  | nil => rfl
  | cons e es ih =>
    simp only [List.mem_cons, not_or] at ho
    have hup : answered true e = true := by
      cases e with
      | opened => exact absurd rfl ho.1
      | _ => rfl
    rw [veiled, hup, ih ho.2]
    rfl

theorem sent_veiled_false (he : Event.established ∉ es) : sent (veiled false es) = [] := by
  induction es with
  | nil => rfl
  | cons e es ih =>
    simp only [List.mem_cons, not_or] at he
    cases e with
    | established => exact absurd rfl he.1
    | _ => exact ih he.2

theorem opened_not_mem_connections (es : Trace) : ∀ k ∈ connections es, Event.opened ∉ k := by
  have hnote : ∀ (ks : List Trace) e, (∀ k ∈ ks, Event.opened ∉ k) →
      ∀ k ∈ note .opened ks e, Event.opened ∉ k := by
    intro ks e hks
    unfold note
    split
    · exact List.forall_mem_cons.2 ⟨List.not_mem_nil, hks⟩
    · next he =>
      cases ks with
      | nil => exact nofun
      | cons k ks =>
        simp only
        split
        · exact hks
        · obtain ⟨hk, hks⟩ := List.forall_mem_cons.1 hks
          exact List.forall_mem_cons.2 ⟨by simp [hk, Ne.symm he], hks⟩
  exact List.foldlRecOn (motive := fun ks => ∀ k ∈ ks, Event.opened ∉ k) (quiet es) _ nofun
    fun ks hks e _ => hnote ks e hks

theorem veiled_singleton (up : Bool) (e : Event) :
    veiled up [e] = [] ∨ veiled up [e] = [e] := by
  unfold veiled
  split
  · exact .inr rfl
  · exact .inl rfl

theorem note_veiled {e : Event} {ks : List Trace}
    (hup : ∀ k ∈ ks.head?, Event.closed ∉ k → k.foldl answered false = up) :
    (veiled up [e]).foldl (note .opened) (ks.map (veiled false)) =
      (note .opened ks e).map (veiled false) := by
  by_cases he : e = .opened
  · subst he
    simp [veiled, Event.isSent, note]
  · cases ks with
    | nil => rcases veiled_singleton up e with hv | hv <;> simp [hv, note, he]
    | cons k ks =>
      by_cases hk : Event.closed ∈ k
      · have hk' : Event.closed ∈ veiled false k := (mem_veiled rfl _ _).2 hk
        rcases veiled_singleton up e with hv | hv <;> simp [hv, note, he, hk, hk']
      · have hk' : Event.closed ∉ veiled false k := mt (mem_veiled rfl _ _).1 hk
        have happend : veiled false (k ++ [e]) = veiled false k ++ veiled up [e] := by
          rw [veiled_append, hup k rfl hk]
        rcases veiled_singleton up e with hv | hv <;> simp [hv, note, he, hk, hk', happend]

theorem answered_note {e : Event} {ks : List Trace}
    (hup : ∀ k ∈ ks.head?, Event.closed ∉ k → k.foldl answered false = up) :
    ∀ k ∈ (note .opened ks e).head?, Event.closed ∉ k → k.foldl answered false = answered up e := by
  intro k hmem hk
  unfold note at hmem
  split at hmem
  · next he =>
    subst he
    cases hmem
    rfl
  · cases ks with
    | nil => cases hmem
    | cons k' ks =>
      simp only at hmem
      split at hmem
      · next hclosed =>
        cases hmem
        exact absurd hclosed hk
      · next hopen =>
        cases hmem
        rw [List.foldl_append, hup k' rfl hopen]
        rfl

theorem foldl_note_veiled (es : Trace) (up : Bool) (ks : List Trace)
    (hup : ∀ k ∈ ks.head?, Event.closed ∉ k → k.foldl answered false = up) :
    (quiet (veiled up es)).foldl (note .opened) (ks.map (veiled false)) =
      ((quiet es).foldl (note .opened) ks).map (veiled false) := by
  induction es generalizing up ks with
  | nil => rfl
  | cons e es ih =>
    have hsplit : veiled up (e :: es) = veiled up [e] ++ veiled (answered up e) es :=
      veiled_append up [e] es
    cases hlog : e.isLog with
    | true =>
      cases e with
      | log n =>
        have hnone : quiet (veiled up [Event.log n]) = [] := by
          rcases veiled_singleton up (.log n) with hv | hv <;> simp [hv]
        rw [hsplit, quiet_append, hnone, List.nil_append, quiet_log]
        exact ih up ks hup
      | _ => cases hlog
    | false =>
      have hquiet : quiet (veiled up [e]) = veiled up [e] := by
        rcases veiled_singleton up e with hv | hv <;> simp [hv, quiet, hlog]
      rw [hsplit, quiet_append, hquiet, List.foldl_append, note_veiled hup,
        ih _ _ (answered_note hup), quiet_cons _ _ hlog, List.foldl_cons]

theorem connections_veiled (es : Trace) :
    connections (veiled false es) = (connections es).map (veiled false) :=
  foldl_note_veiled es false [] nofun

end

/-- What went out on two connections: of each login no more than a part, or each login and then the
same. -/
inductive SameBehind (login login' : Bytes) (k k' : Trace) : Prop
  | unanswered (h : sent k <+: login) (h' : sent k' <+: login')
  | answered (rest : Bytes) (h : sent k = login ++ rest) (h' : sent k' = login' ++ rest)

section
variable {login login' : Bytes} {k k' : Trace}

theorem sent_unanswered (hk : ∀ p, p <+: k → InTurn login p) (he : Event.established ∉ k) :
    sent k <+: login := by
  have hturn := hk k List.prefix_rfl
  have hnone : dequeued k = [] := by
    by_contra hd
    exact he (hturn.frames hd)
  simpa [hnone] using hturn.prefix_wire

theorem sent_answered (hk : ∀ p, p <+: k → InTurn login p) (ho : Event.opened ∉ k)
    (he : Event.established ∈ k) : sent k = login ++ sent (veiled false k) := by
  obtain ⟨p, q, rfl, hp⟩ := List.eq_append_cons_of_mem he
  have hq : Event.opened ∉ q := fun h => ho (by simp [h])
  have hlogin : sent p = login := by
    have hbefore : sent p <+: login :=
      sent_unanswered (fun r hr => hk r (hr.trans (List.prefix_append ..))) hp
    have hturn : InTurn login (p ++ [Event.established]) := hk _ ⟨q, by simp⟩
    have hall : login <+: sent (p ++ [Event.established]) := (hturn.established (by simp)).2
    rw [sent_append] at hall
    exact hbefore.eq_of_length_le (by simpa [sent] using hall.length_le)
  have hveiled : veiled false (p ++ Event.established :: q) =
      veiled false p ++ Event.established :: q := by
    rw [veiled_append, veiled, Trace.answered, veiled_true hq]
    simp [Event.isSent]
  rw [hveiled, sent_append, sent_append, sent_veiled_false hp, hlogin]
  rfl

theorem sameBehind (hk : ∀ p, p <+: k → InTurn login p) (hk' : ∀ p, p <+: k' → InTurn login' p)
    (ho : Event.opened ∉ k) (ho' : Event.opened ∉ k') (hv : veiled false k = veiled false k') :
    SameBehind login login' k k' := by
  have hiff : Event.established ∈ k ↔ Event.established ∈ k' := by
    rw [← mem_veiled rfl false, hv, mem_veiled rfl]
  by_cases he : Event.established ∈ k
  · exact .answered _ (sent_answered hk ho he) (hv ▸ sent_answered hk' ho' (hiff.1 he))
  · exact .unanswered (sent_unanswered hk he) (sent_unanswered hk' (mt hiff.2 he))

end

end Trace

theorem Pushed.outcome?_eq_some {p : Pushed} {m : Signal} (h : p.outcome? = some m) :
    m = .flushed ∨ ∃ e, m = .writeFailed e := by
  cases p with
  | failed e => exact .inr ⟨e, (Option.some.inj h).symm⟩
  | finished => exact .inl (Option.some.inj h).symm
  | waiting => cases h

namespace Client

/-- The run of a client that knows no passcode, on what was met. -/
def replay (c : Client) : List Signal → Step
  | [] => (c, [])
  | m :: ms => ((c.step m).1.masked.replay ms).map id ((c.step m).2 ++ ·)

def Unanswered (c : Client) (up : Bool) : Prop :=
  up = true → ∀ w, c.worker = some w → w.phase.attempt? ≠ some true

section
variable {c c' : Client} {s : Signal} {new : Trace} {up : Bool}

theorem Move.unanswered (hm : Move c s c' new) (h : c.Unanswered up) :
    c'.Unanswered (new.foldl answered up) := by
  intro hup w' hw'
  by_cases he : Event.established ∈ new
  · cases hm <;> simp at he
    cases hw'
    simp [Phase.attempt?]
  · have hbefore := h (answered_of_not_mem he hup)
    cases hm with
    | ignored | stopRequested | accepted | rejected | clocked | sinkSet | elapsed | stirred =>
      exact hbefore w' hw'
    | opened => simp [answered] at hup
    | ended => cases hw'
    | awaited hw hp | greeted hw hp | loginSent hw hp | loginFlushed hw hp =>
      exact absurd (congrArg Phase.attempt? hp) (hbefore _ hw)
    | established => simp at he
    | heard =>
      cases hw'
      simp [attempt?_phaseFor]
    | polled hw hp =>
      cases hw'
      simp [hp, Phase.attempt?]
    | started =>
      cases hw'
      simp [Worker.initial, Phase.attempt?]
    | _ =>
      cases hw'
      simp [Phase.attempt?]

theorem meets?_none (h : c.meets? s = none) (hu : c.Unanswered up) : up = false := by
  obtain ⟨-, hl, -⟩ := step_of_met_nothing h
  obtain ⟨rest, hl⟩ := Option.isSome_iff_exists.1 hl
  obtain ⟨w, buffer, hw, hp⟩ := exists_loggingIn hl
  by_contra hup
  exact hu (by simpa using hup) w hw (by rw [hp]; rfl)

theorem step_unanswered (s : Signal) (h : c.Unanswered up) :
    (c.step s).1.Unanswered ((c.step s).2.foldl answered up) := by
  rw [← foldl_answered_quiet]
  exact (c.step_makes s).unanswered h

theorem veiled_sentEvents (part : Bytes) :
    veiled false (sentEvents part) = [] ∧ (sentEvents part).foldl answered false = false := by
  unfold sentEvents
  split <;> exact ⟨rfl, rfl⟩

/-- All but the bytes of a login is decided by what is met. -/
theorem run_replay (h : c.Unanswered up) (ss : List Signal) :
    (c.run ss).1.masked = (c.masked.replay (c.met ss)).1 ∧
      veiled up (c.run ss).2 = veiled up (c.masked.replay (c.met ss)).2 := by
  induction ss generalizing c up with
  | nil => exact ⟨rfl, rfl⟩
  | cons s ss ih =>
    have hnext := c.step_unanswered s h
    rw [run_cons, met]
    cases hs : c.meets? s with
    | none =>
      obtain rfl := meets?_none hs h
      obtain ⟨hc, -, part, he⟩ := step_of_met_nothing hs
      obtain ⟨hv, ha⟩ := veiled_sentEvents part
      rw [he, ha] at hnext
      obtain ⟨hrun, hshown⟩ := ih hnext
      rw [hc] at hrun hshown
      rw [Option.toList_none, List.nil_append]
      refine ⟨hrun, ?_⟩
      rw [veiled_append, he, hv, ha, List.nil_append, hshown]
    | some m =>
      obtain ⟨hc, he⟩ := step_of_met hs
      obtain ⟨hrun, hshown⟩ := ih hnext
      rw [← hc] at hrun hshown
      rw [Option.toList_some, List.singleton_append, replay]
      refine ⟨hrun, ?_⟩
      rw [Prod.map_snd, veiled_append, veiled_append, he, hshown]

/-- Clients that differ in what is masked, and meet the same, show the same. -/
theorem run_alike {ss ss' : List Signal} (hu : c.Unanswered up) (hu' : c'.Unanswered up)
    (h : c.masked = c'.masked) (hmet : c.met ss = c'.met ss') :
    (c.run ss).1.masked = (c'.run ss').1.masked ∧
      veiled up (c.run ss).2 = veiled up (c'.run ss').2 := by
  obtain ⟨hc, he⟩ := run_replay hu ss
  obtain ⟨hc', he'⟩ := run_replay hu' ss'
  rw [h, hmet] at hc he
  exact ⟨hc.trans hc'.symm, he.trans he'.symm⟩

/-! What can be met -/

/-- A step meets one thing at most, so whatever is met first is met by some signals. -/
theorem exists_met_take {ms : List Signal} {ss : List Signal} (h : ms <+: c.met ss) :
    ∃ n, c.met (ss.take n) = ms := by
  induction ss generalizing c ms with
  | nil => exact ⟨0, (List.prefix_nil.1 h).symm⟩
  | cons s ss ih =>
    cases ms with
    | nil => exact ⟨0, rfl⟩
    | cons m ms =>
      rw [met] at h
      cases hs : c.meets? s with
      | none =>
        rw [hs, Option.toList_none, List.nil_append] at h
        obtain ⟨n, hn⟩ := ih h
        exact ⟨n + 1, by rw [List.take_succ_cons, met, hs, Option.toList_none, List.nil_append, hn]⟩
      | some m' =>
        rw [hs, Option.toList_some, List.singleton_append, List.cons_prefix_cons] at h
        obtain ⟨rfl, h⟩ := h
        obtain ⟨n, hn⟩ := ih h
        exact ⟨n + 1, by
          rw [List.take_succ_cons, met, hs, Option.toList_some, List.singleton_append, hn]⟩

theorem met_append (c : Client) (ss more : List Signal) :
    c.met (ss ++ more) = c.met ss ++ (c.run ss).1.met more := by
  induction ss generalizing c with
  | nil => rfl
  | cons s ss ih => rw [List.cons_append, met, met, ih, List.append_assoc, run_cons]

theorem login?_masked (c : Client) : c.masked.login? = c.login?.map fun _ => [] := by
  cases hw : c.worker with
  | none => simp [login?, masked, hw]
  | some w =>
    cases hp : w.phase <;> simp [login?, masked, hw, hp, Worker.masked, Phase.masked, Phase.login?]

theorem meets?_masked {m : Signal} (h : c.meets? s = some m) : c.masked.meets? m = some m := by
  cases hl : c.login? with
  | none => exact meets?_of_login? (by rw [login?_masked, hl]; rfl)
  | some rest =>
    have hlogin : c.masked.login? = some [] := by rw [login?_masked, hl]; rfl
    cases s with
    | call | elapse | wake =>
      cases h
      rfl
    | _ =>
      simp only [meets?, hl] at h
      rcases Pushed.outcome?_eq_some h with rfl | ⟨e, rfl⟩ <;>
        simp [meets?, hlogin, Pushed.ofSignal, Pushed.outcome?]

theorem met_flushed {rest : Bytes} (hl : c.login? = some rest) :
    c.met [.took rest.length, .flushed] = [.flushed] := by
  obtain ⟨w, buffer, hw, hp⟩ := exists_loggingIn hl
  have hpush : Pushed.ofSignal rest (.took rest.length) = .waiting rest [] := by
    cases rest with
    | nil => rfl
    | cons b bs => simp [Pushed.ofSignal]
  have hmeets : c.meets? (.took rest.length) = none := by
    simp only [meets?, hl, hpush, Pushed.outcome?]
  have hnext : (c.step (.took rest.length)).1.login? = some [] := by
    simp only [step, hw, proceed, hp, loggingIn, hpush]
    rfl
  rw [met, met, hmeets]
  simp [meets?, hnext, Pushed.ofSignal, Pushed.outcome?, met]

/-- What can be met without the passcode can be met with any. -/
theorem exists_met {m : Signal} (h : c.masked.meets? m = some m) : ∃ ss, c.met ss = [m] := by
  cases hl : c.login? with
  | none => exact ⟨[m], by simp [met, meets?_of_login? hl]⟩
  | some rest =>
    have hlogin : c.masked.login? = some [] := by rw [login?_masked, hl]; rfl
    cases m with
    | call k => exact ⟨[.call k], rfl⟩
    | elapse d => exact ⟨[.elapse d], rfl⟩
    | wake => exact ⟨[.wake], rfl⟩
    | flushed => exact ⟨_, met_flushed hl⟩
    | writeFailed e => exact ⟨[.writeFailed e], by simp [met, meets?, hl, Pushed.ofSignal,
        Pushed.outcome?]⟩
    | took n => cases n <;> simp [meets?, hlogin, Pushed.ofSignal, Pushed.outcome?] at h
    | _ => simp [meets?, hlogin, Pushed.ofSignal, Pushed.outcome?] at h

theorem exists_met_alike (h : c.masked = c'.masked) (ss : List Signal) :
    ∃ ss', c.met ss = c'.met ss' := by
  have hup : ∀ c : Client, c.Unanswered false := fun _ => nofun
  induction ss generalizing c c' with
  | nil => exact ⟨[], rfl⟩
  | cons s ss ih =>
    rw [met]
    cases hs : c.meets? s with
    | none => exact ih ((step_of_met_nothing hs).1.trans h)
    | some m =>
      obtain ⟨first, hfirst⟩ := exists_met (h ▸ meets?_masked hs)
      have hnext : (c.step s).1.masked = (c'.run first).1.masked := by
        rw [(run_replay (hup c') first).1, hfirst, ← h, ← (step_of_met hs).1]
        rfl
      obtain ⟨more, hmore⟩ := ih hnext
      exact ⟨first ++ more, by rw [met_append, hfirst, hmore]; rfl⟩

end

/-! Two clients -/

structure SameSight (a b : Step) : Prop where
  notices : notices a.2 = notices b.2
  /-- What the calls that write return. -/
  answers : answers a.2 = answers b.2
  handed : handed a.2 = handed b.2
  delivered : Trace.delivered a.2 = Trace.delivered b.2
  status : a.1.status = b.1.status
  description : a.1.describe = b.1.describe
  credentials : a.1.settings.login.credentials.redacted = b.1.settings.login.credentials.redacted
  /-- On each connection the same goes out behind the login. -/
  wires : List.Forall₂ (SameBehind a.1.settings.login.bytes b.1.settings.login.bytes)
    (connections a.2) (connections b.2)
  /-- Nothing goes out anywhere else. -/
  onWires : sent a.2 = (connections a.2).reverse.flatMap sent ∧
    sent b.2 = (connections b.2).reverse.flatMap sent
  /-- Whatever else happened. -/
  events : veiled false a.2 = veiled false b.2

/-- The passcode of neither of two clients can be told, except by its login line. -/
structure Undisclosed (c c' : Client) : Prop where
  runs : ∀ ss ss', c.met ss = c'.met ss' → SameSight (c.run ss) (c'.run ss')
  /-- The same is met at every moment on the way. -/
  moments : ∀ ss ss', c.met ss = c'.met ss' → ∀ n, ∃ n', c.met (ss.take n) = c'.met (ss'.take n')
  /-- What one meets, the other can meet. -/
  possible : ∀ ss, ∃ ss', c.met ss = c'.met ss'

theorem met_take_prefix (c : Client) (ss : List Signal) (n : Nat) :
    c.met (ss.take n) <+: c.met ss := by
  rw [← List.take_append_drop n ss, met_append, List.take_append_drop]
  exact List.prefix_append _ _

theorem sent_on_connections (settings : Settings) (capacity : UInt64) (ss : List Signal) :
    sent ((initial settings capacity).run ss).2 =
      (connections ((initial settings capacity).run ss).2).reverse.flatMap sent := by
  have h := tracking_conversing.within _ (fun hm hk => hm.sent hk)
    (c := initial settings capacity) rfl rfl ss
  exact (sent_quiet _).symm.trans h

theorem moments_of_run (settings : Settings) (capacity : UInt64) (ss : List Signal) :
    ∀ k ∈ connections ((initial settings capacity).run ss).2,
      ∀ p, p <+: k → InTurn settings.login.bytes p := by
  let T : Settings → Trace → Prop := fun settings k => ∀ p, p <+: k → InTurn settings.login.bytes p
  have hcurrent : ∀ {c : Client} {k : Trace}, c.Conversing k → T c.settings k :=
    fun h => h.exchange.moments
  have hends : ∀ {c : Client} {s c' before later k},
      Move c s c' (before ++ Event.closed :: later) → c.Conversing k →
        T c.settings (k ++ before ++ [Event.closed]) :=
    fun hm h => (hm.exchange_closing h.exchange).moments
  exact tracking_conversing.run_all Move.settings hcurrent hends
    (c := initial settings capacity) rfl rfl ss

section
variable {settings settings' : Settings} {capacity : UInt64} {ss ss' : List Signal}

theorem wires_of_veiled
    (h : veiled false ((initial settings capacity).run ss).2 =
      veiled false ((initial settings' capacity).run ss').2) :
    List.Forall₂ (SameBehind settings.login.bytes settings'.login.bytes)
      (connections ((initial settings capacity).run ss).2)
      (connections ((initial settings' capacity).run ss').2) := by
  have hveiled := congrArg connections h
  rw [connections_veiled, connections_veiled] at hveiled
  have hlength := congrArg List.length hveiled
  rw [List.length_map, List.length_map] at hlength
  refine List.forall₂_iff_get.2 ⟨hlength, fun i hi hi' => ?_⟩
  have hmem := List.getElem_mem hi
  have hmem' := List.getElem_mem hi'
  refine sameBehind (moments_of_run _ _ _ _ hmem) (moments_of_run _ _ _ _ hmem')
    (opened_not_mem_connections _ _ hmem) (opened_not_mem_connections _ _ hmem') ?_
  have hget := List.getElem_of_eq hveiled (by simpa using hi)
  rwa [List.getElem_map, List.getElem_map] at hget

theorem sameSight (hs : (initial settings capacity).masked = (initial settings' capacity).masked)
    (hmet : (initial settings capacity).met ss = (initial settings' capacity).met ss') :
    SameSight ((initial settings capacity).run ss) ((initial settings' capacity).run ss') := by
  have hquiet : (initial settings capacity).Unanswered false := nofun
  have hquiet' : (initial settings' capacity).Unanswered false := nofun
  obtain ⟨hc, hv⟩ := run_alike hquiet hquiet' hs hmet
  have hview : ∀ {α : Type} (f : Event → List α), (∀ bytes, f (.sent bytes) = []) →
      ((initial settings capacity).run ss).2.flatMap f =
        ((initial settings' capacity).run ss').2.flatMap f := by
    intro α f hf
    rw [← flatMap_veiled f hf false, hv, flatMap_veiled f hf]
  have hstatus : ∀ c : Client, c.status = c.masked.status := fun _ => rfl
  have hdescription : ∀ c : Client, c.describe = c.masked.describe := fun _ => rfl
  have hcredentials : ∀ c : Client, c.settings.login.credentials.redacted =
      c.masked.settings.login.credentials.redacted := fun _ => rfl
  exact {
    notices := hview _ fun _ => rfl
    answers := hview _ fun _ => rfl
    handed := hview _ fun _ => rfl
    delivered := hview _ fun _ => rfl
    status := by rw [hstatus, hc, ← hstatus]
    description := by rw [hdescription, hc, ← hdescription]
    credentials := by rw [hcredentials, hc, ← hcredentials]
    wires := by
      rw [run_settings, run_settings]
      exact wires_of_veiled hv
    onWires := ⟨sent_on_connections .., sent_on_connections ..⟩
    events := hv }

end

/-- Two clients whose configurations differ in the passcode only, in whatever runs in which they meet
the same: all that is seen of them is the same, but for the login lines. -/
theorem passcode_only_in_login {config : ClientConfig} {passcode : String} {c c' : Client}
    (hc : Client.new config = .ok c) (hc' : Client.new { config with passcode } = .ok c') :
    Undisclosed c c' := by
  obtain ⟨-, rfl⟩ := (new_eq_ok_iff _ _).1 hc
  obtain ⟨-, rfl⟩ := (new_eq_ok_iff _ _).1 hc'
  exact {
    runs := fun ss ss' hmet => sameSight rfl hmet
    moments := fun ss ss' hmet n => by
      obtain ⟨n', hn'⟩ := exists_met_take (hmet ▸ met_take_prefix _ ss n)
      exact ⟨n', hn'.symm⟩
    possible := exists_met_alike rfl }

def trialConfig : ClientConfig := .withDefaults "localhost" defaultServerPort "n0call" "12345" "1"

/-- `earlyAnswer` to a client whose login is shorter and goes out in other pieces. -/
def otherPieces : List Signal :=
  [.call .start, .turn, .connected, .received (Utf8.encode "# hi\r\n# ok\r\n"), .poll, .took 100,
    .flushed, .poll, .call (.write [65, 10]), .turn, .took 2, .flushed, .endOfStream,
    .call (.clock 60000), .turn, .connected, .received (Utf8.encode "# hi\r\n"),
    .writeFailed (.ofKind .connectionReset)]

theorem undisclosed_early_answer :
    ∃ c c', Client.new trialConfig = .ok c ∧
      Client.new { trialConfig with passcode := "-1" } = .ok c' ∧
      c.met earlyAnswer = c'.met otherPieces ∧
      SameSight (c.run earlyAnswer) (c'.run otherPieces) ∧
      sent (c.run earlyAnswer).2 ≠ sent (c'.run otherPieces).2 := by
  have hc : Client.new trialConfig =
      .ok (initial trialConfig.checked trialConfig.queueCapacity) := by decide
  have hc' : Client.new { trialConfig with passcode := "-1" } =
      .ok (initial { trialConfig with passcode := "-1" }.checked trialConfig.queueCapacity) := by
    decide
  have hmet : (initial trialConfig.checked trialConfig.queueCapacity).met earlyAnswer =
      (initial { trialConfig with passcode := "-1" }.checked trialConfig.queueCapacity).met
        otherPieces := by
    decide +kernel
  exact ⟨_, _, hc, hc', hmet, (passcode_only_in_login hc hc').runs _ _ hmet, by decide +kernel⟩

end Client

end IGate
