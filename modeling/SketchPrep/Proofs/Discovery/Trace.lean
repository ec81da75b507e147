import SketchPrep.Discovery.Session

namespace SketchPrep

def discoveries (calls : List Call) : List Call := calls.filter (·.question = .discover)

namespace Call

def asked (source : Path) (includeDirs : List Path) (answer : Except Failure Outcome) : Call :=
  ⟨.discover, source, includeDirs, some answer⟩

def isClean (c : Call) : Bool :=
  match c.answer with
  | some (.ok .clean) => true
  | _ => false

def missing? (c : Call) : Option String :=
  match c.answer with
  | some (.ok (.missing header)) => some header
  | _ => none

@[simp]
theorem asked_source (source : Path) (dirs : List Path) (answer : Except Failure Outcome) :
    (asked source dirs answer).source = source := rfl

@[simp]
theorem asked_includeDirs (source : Path) (dirs : List Path) (answer : Except Failure Outcome) :
    (asked source dirs answer).includeDirs = dirs := rfl

@[simp]
theorem asked_answer (source : Path) (dirs : List Path) (answer : Except Failure Outcome) :
    (asked source dirs answer).answer = some answer := rfl

end Call

def Preprocessor.Gives {σ : Type} (pp : Preprocessor σ) (c : Call) : Prop :=
  ∃ state, c.answer = some (pp.discover c.source c.includeDirs state).1

def Preprocessor.answering (answer : Path → List Path → Outcome) (messages : String) :
    Preprocessor Unit where
  discover source dirs state := (.ok (answer source dirs), state)
  diagnose _ _ state := (.ok messages, state)
  preprocess _ _ state := (.ok "", state)
  note _ state := state

namespace Session

def waiting (s : Session) (rest : List Path) : Session :=
  { s with queue := { s.queue with pending := rest } }

inductive Ends (w : Surroundings) (s : Session) (source : Path) :
    Except Failure Outcome → Failure → Session → Prop
  | broken (f) : Ends w s source (.error f) f s
  | failed (output) : Ends w s source (.ok (.failed output)) (.compiler source output) s
  | stuck {header f} (h : s.provide w header = .stuck f) :
      Ends w s source (.ok (.missing header)) f s
  | unresolved {header s'} (output) (h : s.provide w header = .hopeless s') :
      Ends w s source (.ok (.missing header)) (.unresolved header source output) s'
  | undiagnosed {header s'} (f) (h : s.provide w header = .hopeless s') :
      Ends w s source (.ok (.missing header)) (.during (.diagnosing header) f) s'

inductive Trace (w : Surroundings) :
    Option Path → Session → List Call → Except Failure Unit → Session → Prop
  | done {s} (h : s.queue.pending = []) : Trace w none s [] (.ok ()) s
  | next {s source rest calls result s'} (h : s.queue.pending = source :: rest)
      (ht : Trace w (some source) (s.waiting rest) calls result s') :
      Trace w none s calls result s'
  | clean {source s calls result s'} (ht : Trace w none s calls result s') :
      Trace w (some source) s (.asked source s.includeDirs (.ok .clean) :: calls) result s'
  | retry {source s header t calls result s'} (h : s.provide w header = .retry t)
      (ht : Trace w (some source) t calls result s') :
      Trace w (some source) s
        (.asked source s.includeDirs (.ok (.missing header)) :: calls) result s'
  | fails {source s answer f s'} (h : Ends w s source answer f s') :
      Trace w (some source) s [.asked source s.includeDirs answer] (.error f) s'

variable {σ : Type} {w : Surroundings} {pp : Preprocessor σ} {s s' : Session} {source : Path}
  {header : String} {state state' : σ}

theorem pop_eq_some {q q' : SourceQueue} (h : q.pop = some (source, q')) :
    ∃ rest, q.pending = source :: rest ∧ q' = { q with pending := rest } := by
  unfold SourceQueue.pop at h
  split at h
  · cases h
  · cases h; exact ⟨_, ‹_›, rfl⟩

theorem pop_eq_none {q : SourceQueue} (h : q.pop = none) : q.pending = [] := by
  unfold SourceQueue.pop at h
  split at h
  · assumption
  · cases h

theorem runFrom_next {rest : List Path} (h : s.queue.pending = source :: rest) :
    runFrom w pp none s state = runFrom w pp (some source) (s.waiting rest) state := by
  have hp : s.queue.pop = some (source, { s.queue with pending := rest }) := by
    simp [SourceQueue.pop, h]
  rw [runFrom]
  split
  · simp_all
  · rename_i he
    rw [hp] at he
    cases he
    rfl

theorem runFrom_done (h : s.queue.pending = []) : runFrom w pp none s state = (.ok (), s, state) := by
  have hp : s.queue.pop = none := by simp [SourceQueue.pop, h]
  rw [runFrom]
  split
  · rfl
  · simp_all

theorem runFrom_error {f : Failure}
    (h : pp.discover source s.includeDirs state = (.error f, state')) :
    runFrom w pp (some source) s state = (.error f, s, state') := by
  rw [runFrom, h]

theorem runFrom_clean (h : pp.discover source s.includeDirs state = (.ok .clean, state')) :
    runFrom w pp (some source) s state = runFrom w pp none s state' := by
  rw [runFrom.eq_2, h]

theorem runFrom_failed {output : String}
    (h : pp.discover source s.includeDirs state = (.ok (.failed output), state')) :
    runFrom w pp (some source) s state = (.error (.compiler source output), s, state') := by
  rw [runFrom, h]

theorem runFrom_retry (h : pp.discover source s.includeDirs state = (.ok (.missing header), state'))
    (hs : s.provide w header = .retry s') :
    runFrom w pp (some source) s state =
      runFrom w pp (some source) s' (pp.noteAll (s.eventsOn w source header) state') := by
  rw [runFrom, h]
  dsimp only
  split <;> simp_all

theorem runFrom_stuck {f : Failure}
    (h : pp.discover source s.includeDirs state = (.ok (.missing header), state'))
    (hs : s.provide w header = .stuck f) :
    runFrom w pp (some source) s state =
      (.error f, s, pp.noteAll (s.eventsOn w source header) state') := by
  rw [runFrom, h]
  dsimp only
  split <;> simp_all

theorem runFrom_hopeless {f : Failure} {last : σ}
    (h : pp.discover source s.includeDirs state = (.ok (.missing header), state'))
    (hs : s.provide w header = .hopeless s')
    (hu : unresolved pp s' source header (pp.noteAll (s.eventsOn w source header) state') = (f, last)) :
    runFrom w pp (some source) s state = (.error f, s', last) := by
  rw [runFrom, h]
  dsimp only
  split <;> simp_all

theorem noteAll_recording (pp : Preprocessor σ) (es : List LogEvent) (state : σ) (record : Record) :
    ∃ record', pp.recording.noteAll es (state, record) = (pp.noteAll es state, record') ∧
      record'.calls = record.calls := by
  induction es generalizing state record with
  | nil => exact ⟨record, rfl, rfl⟩
  | cons e es ih => exact ih (pp.note e state) (record.addEvent e)

theorem discover_recording {answer : Except Failure Outcome} (record : Record)
    (h : pp.discover source s.includeDirs state = (answer, state')) :
    pp.recording.discover source s.includeDirs (state, record) =
      (answer, state', record.addCall (.asked source s.includeDirs answer)) := by
  simp only [Preprocessor.recording, h, Call.asked]

theorem discoveries_addCall (record : Record) (source : Path) (dirs : List Path)
    (answer : Except Failure Outcome) :
    discoveries (record.addCall (.asked source dirs answer)).calls =
      discoveries record.calls ++ [.asked source dirs answer] := by
  simp [Record.addCall, discoveries, Call.asked]

/-- A missing header is recorded once, and what is noted about it is not a question. -/
theorem missing_recording (w : Surroundings) (record : Record)
    (h : pp.discover source s.includeDirs state = (.ok (.missing header), state')) :
    ∃ record₁ record₂,
      pp.recording.discover source s.includeDirs (state, record) =
          (.ok (.missing header), state', record₁) ∧
        pp.recording.noteAll (s.eventsOn w source header) (state', record₁) =
          (pp.noteAll (s.eventsOn w source header) state', record₂) ∧
        discoveries record₂.calls =
          discoveries record.calls ++ [.asked source s.includeDirs (.ok (.missing header))] := by
  have hd := discover_recording record h
  obtain ⟨record₂, hn, hc⟩ := noteAll_recording pp (s.eventsOn w source header) state'
    (record.addCall (.asked source s.includeDirs (.ok (.missing header))))
  exact ⟨_, record₂, hd, hn, by rw [hc, discoveries_addCall]⟩

theorem gives_asked {answer : Except Failure Outcome}
    (h : pp.discover source s.includeDirs state = (answer, state')) :
    pp.Gives (.asked source s.includeDirs answer) :=
  ⟨state, by rw [Call.asked_source, Call.asked_includeDirs, h, Call.asked_answer]⟩

theorem unresolved_recording (pp : Preprocessor σ) (s : Session) (source : Path) (header : String)
    (state : σ) (record : Record) :
    ∃ record', unresolved pp.recording s source header (state, record) =
        ((unresolved pp s source header state).1, (unresolved pp s source header state).2, record') ∧
      discoveries record'.calls = discoveries record.calls := by
  refine ⟨record.addCall ⟨.diagnose, source, s.includeDirs, none⟩, ?_, ?_⟩
  · have hr : pp.recording.diagnose source s.includeDirs (state, record) =
        ((pp.diagnose source s.includeDirs state).1, (pp.diagnose source s.includeDirs state).2,
          record.addCall ⟨.diagnose, source, s.includeDirs, none⟩) := rfl
    rw [unresolved, unresolved, hr]
    rcases pp.diagnose source s.includeDirs state with ⟨_ | _, _⟩ <;> rfl
  · simp [Record.addCall, discoveries]

theorem ends_unresolved (pp : Preprocessor σ) (source : Path) (state : σ)
    (h : s.provide w header = .hopeless s') :
    Ends w s source (.ok (.missing header)) (unresolved pp s' source header state).1 s' := by
  simp only [unresolved]
  rcases pp.diagnose source s'.includeDirs state with ⟨f | output, _⟩
  · exact .undiagnosed f h
  · exact .unresolved output h

/-- Recording changes nothing but the record, to which the answers are added in order. -/
theorem runFrom_recording (w : Surroundings) (pp : Preprocessor σ) (cur : Option Path) (s : Session)
    (state : σ) (record : Record) :
    ∃ calls record', runFrom w pp.recording cur s (state, record) =
        ((runFrom w pp cur s state).1, (runFrom w pp cur s state).2.1,
          (runFrom w pp cur s state).2.2, record') ∧
      discoveries record'.calls = discoveries record.calls ++ calls ∧
      Trace w cur s calls (runFrom w pp cur s state).1 (runFrom w pp cur s state).2.1 ∧
      ∀ c ∈ calls, pp.Gives c := by
  induction cur, s, state using runFrom.induct w pp generalizing record with
  | case1 s state hp =>
      have hp := pop_eq_none hp
      rw [runFrom_done hp, runFrom_done hp]
      exact ⟨[], record, rfl, by simp, .done hp, by simp⟩
  | case2 s state source queue hp ih =>
      obtain ⟨rest, hq, rfl⟩ := pop_eq_some hp
      rw [runFrom_next hq, runFrom_next hq]
      obtain ⟨calls, record', hr, hc, ht, hg⟩ := ih record
      exact ⟨calls, record', hr, hc, .next hq ht, hg⟩
  | case3 source s state f state' hd =>
      have hd' := discover_recording record hd
      rw [runFrom_error hd, runFrom_error hd']
      exact ⟨[.asked source s.includeDirs (.error f)], _, rfl, discoveries_addCall ..,
        .fails (.broken f), by simpa using gives_asked hd⟩
  | case4 source s state state' hd ih =>
      have hd' := discover_recording record hd
      rw [runFrom_clean hd, runFrom_clean hd']
      obtain ⟨calls, record', hr, hc, ht, hg⟩ :=
        ih (record.addCall (.asked source s.includeDirs (.ok .clean)))
      refine ⟨_, record', hr, ?_, .clean ht, ?_⟩
      · rw [hc, discoveries_addCall, List.append_assoc, List.singleton_append]
      · exact List.forall_mem_cons.2 ⟨gives_asked hd, hg⟩
  | case5 source s state output state' hd =>
      have hd' := discover_recording record hd
      rw [runFrom_failed hd, runFrom_failed hd']
      exact ⟨[.asked source s.includeDirs (.ok (.failed output))], _, rfl, discoveries_addCall ..,
        .fails (.failed output), by simpa using gives_asked hd⟩
  | case6 source s state header state' hd noted t hs ih =>
      obtain ⟨record₁, record₂, hd', hn, hc₂⟩ := missing_recording w record hd
      rw [runFrom_retry hd hs, runFrom_retry hd' hs, hn]
      obtain ⟨calls, record', hr, hc, ht, hg⟩ := ih record₂
      refine ⟨_, record', hr, ?_, .retry hs ht, ?_⟩
      · rw [hc, hc₂, List.append_assoc, List.singleton_append]
      · exact List.forall_mem_cons.2 ⟨gives_asked hd, hg⟩
  | case7 source s state header state' hd f hs =>
      obtain ⟨record₁, record₂, hd', hn, hc₂⟩ := missing_recording w record hd
      rw [runFrom_stuck hd hs, runFrom_stuck hd' hs, hn]
      exact ⟨_, record₂, rfl, hc₂, .fails (.stuck hs), by simpa using gives_asked hd⟩
  | case8 source s state header state' hd noted s' hs f last hu =>
      obtain ⟨record₁, record₂, hd', hn, hc₂⟩ := missing_recording w record hd
      obtain ⟨record₃, hu', hc₃⟩ := unresolved_recording pp s' source header noted record₂
      rw [hu] at hu'
      rw [runFrom_hopeless hd hs hu, runFrom_hopeless hd' hs (hn ▸ hu')]
      have he := ends_unresolved pp source noted hs
      rw [hu] at he
      exact ⟨_, record₃, rfl, hc₃.trans hc₂, .fails he, by simpa using gives_asked hd⟩

def callsOf (w : Surroundings) (pp : Preprocessor σ) (s : Session) (state : σ) : List Call :=
  discoveries (s.run w pp.recording (state, .empty)).2.2.2.calls

theorem run_trace (w : Surroundings) (pp : Preprocessor σ) (s : Session) (state : σ) :
    Trace w none s (s.callsOf w pp state) (s.run w pp state).1 (s.run w pp state).2.1 ∧
      ∀ c ∈ s.callsOf w pp state, pp.Gives c := by
  obtain ⟨calls, record', hr, hc, ht, hg⟩ := runFrom_recording w pp none s state .empty
  have he : s.callsOf w pp state = calls := by
    rw [callsOf, run, hr, hc]
    rfl
  rw [he]
  exact ⟨ht, hg⟩

/-- What can be done with a session. Every run may have another compiler. -/
inductive Use : Type 1
  | enqueue (p : Path)
  | run {σ : Type} (pp : Preprocessor σ) (state : σ)

def use (w : Surroundings) (s : Session) : Use → Session
  | .enqueue p => (s.enqueue w p).2
  | .run pp state => (s.run w pp state).2.1

def after (w : Surroundings) (dirs : List Path) (uses : List Use) : Session :=
  uses.foldl (use w) (start dirs)

theorem after_enqueue (w : Surroundings) (dirs sources : List Path) :
    after w dirs (sources.map .enqueue) =
      { start dirs with queue := SourceQueue.empty.extend w.tree sources } := by
  have hfold (s : Session) : sources.foldl (fun s p => use w s (.enqueue p)) s =
      { s with queue := s.queue.extend w.tree sources } := by
    induction sources generalizing s with
    | nil => rfl
    | cons p sources ih => exact ih _
  rw [after, List.foldl_map]
  exact hfold _

end Session

variable {σ : Type}

def discoverCalls (w : Surroundings) (pp : Preprocessor σ) (dirs sources : List Path) (state : σ) :
    List Call :=
  discoveries (discover w pp.recording dirs sources (state, .empty)).2.2.calls

/-- Discovery is the run of a session in which the sources were queued. -/
theorem discover_eq (w : Surroundings) (pp : Preprocessor σ) (dirs sources : List Path) (state : σ) :
    discover w pp dirs sources state =
      let r := (Session.after w dirs (sources.map .enqueue)).run w pp state
      (r.1.map fun _ => r.2.1.discovery, r.2.2) := by
  have hs : sources.foldl (fun s p => (s.enqueue w p).2) (Session.start dirs) =
      Session.after w dirs (sources.map .enqueue) := by
    rw [Session.after, List.foldl_map]
    rfl
  simp only [discover, hs]
  rcases (Session.after w dirs (sources.map .enqueue)).run w pp state with ⟨_ | _, _, _⟩ <;> rfl

theorem discover_trace (w : Surroundings) (pp : Preprocessor σ) (dirs sources : List Path) (state : σ) :
    ∃ result s', (discover w pp dirs sources state).1 = result.map (fun _ => s'.discovery) ∧
      Session.Trace w none (Session.after w dirs (sources.map .enqueue))
        (discoverCalls w pp dirs sources state) result s' ∧
      ∀ c ∈ discoverCalls w pp dirs sources state, pp.Gives c := by
  have hcalls : discoverCalls w pp dirs sources state =
      (Session.after w dirs (sources.map .enqueue)).callsOf w pp state := by
    rw [discoverCalls, discover_eq]
    rfl
  obtain ⟨ht, hg⟩ := Session.run_trace w pp (Session.after w dirs (sources.map .enqueue)) state
  exact ⟨_, _, by rw [discover_eq], hcalls ▸ ht, hcalls ▸ hg⟩

end SketchPrep
