import OsModa.Gateway.ConfigSteps

/-!
What a request that is refused leaves behind.

Most refusals come before anything is changed. The others are those of a `PATCH` whose runtime is
looked up after the agent has been changed, of a `DELETE` that meets a binding without fields, and
of every change that cannot be written (`unchanged_iff`).
-/

namespace OsModa.Gateway

open OsModa.Js OsModa.Machine ConfigState

/-- The agents in memory, the agents file and the credentials are as they were. -/
structure Unchanged (s s' : ConfigState) : Prop where
  agents : s'.current.content = s.current.content
  file : s'.file = s.file
  credentials : s'.credentials = s.credentials

/-- An answer with an error, or none as yet. -/
def ConfigOutput.IsRefusal : ConfigOutput → Prop
  | .error _ | .waits => True
  | .ok _ _ | .quiet => False

/-- What the state must be before a step that may refuse. -/
structure RefusesCleanly (s : ConfigState) (input : ConfigInput) : Prop where
  /-- What is changed of the agents can be written. -/
  written : ∀ update snapshot, Changes s input s.live update snapshot →
    snapshot.content ≠ s.current.content → input.written = true
  /-- A `PATCH` that asks for no new driver leaves the agent with a runtime that is found. -/
  runtime : ∀ id v body tag a w, input = .request true (.patchAgent id (some v)) w →
    s.current.findAgent id = some (tag, a) → v.ownFields = some body → checkPatch body = .ok () →
    newRuntime body a = none →
    (s.current.patchAgent tag body w.now).content ≠ s.current.content →
      ∃ d, getDriver ((body.get? (utf16 "runtime")).or a.runtime) = some d ∧ d ≠ .missing
  /-- A `DELETE` of an agent meets no binding that is `null`. -/
  bindings : ∀ id w e, input = .request true (.deleteAgent id) w → s.current.findAgent id = some e →
    ∀ b ∈ s.current.bindings, isBindingOf id b ≠ none

section Steps

variable {s : ConfigState}

theorem runtime_patched (body : Fields) (now : JsString) (a : AgentFields) :
    (a.patched body now).runtime = (body.get? (utf16 "runtime")).or a.runtime := by
  rw [AgentFields.runtime, get?_patched, if_neg (by decide), if_pos (by decide)]
  rfl

/-- An agent that goes is missed. -/
theorem content_spliceAgent_ne {snapshot : Snapshot} {id : JsString} {e : Nat × AgentFields}
    (h : snapshot.findAgent id = some e) : (snapshot.spliceAgent id).content ≠ snapshot.content := by
  intro heq
  have hlength := congrArg (fun f => f.agents.length) heq
  have hmem := List.mem_of_find?_eq_some h
  have hhas : e.2.hasId id = true :=
    List.find?_some (p := fun e : Nat × AgentFields => e.2.hasId id) h
  have herased : (snapshot.entries.eraseP fun e => e.2.hasId id).length =
      snapshot.entries.length - 1 := List.length_eraseP_of_mem hmem hhas
  have hpos := List.length_pos_of_mem hmem
  simp only [Snapshot.content, Snapshot.spliceAgent, List.length_map] at hlength
  omega

theorem unchanged_of_ne {ref : Nat} (h : ref ≠ s.live) (snapshot : Snapshot) :
    Unchanged s (s.withConfig (s.setSnapshot ref snapshot)) where
  agents := congrArg Snapshot.content (s.setSnapshot_of_ne (Ne.symm h) snapshot)
  file := rfl
  credentials := rfl

theorem content_setSnapshot (base : ConfigState) (snapshot : Snapshot) :
    (base.withConfig (s.setSnapshot s.live snapshot)).current.content = snapshot.content :=
  congrArg Snapshot.content (s.setSnapshot_self s.live snapshot)

/-- A snapshot in memory that is changed to what it holds. -/
theorem unchanged_of_content {base : ConfigState} {snapshot : Snapshot}
    (h : snapshot.content = s.current.content) :
    Unchanged s (base.withConfig (s.setSnapshot s.live snapshot)) where
  agents := (content_setSnapshot base snapshot).trans h
  file := rfl
  credentials := rfl

theorem unchanged_of_outcome {input : ConfigInput} {base : ConfigState}
    {r : ConfigOutput × ConfigState} (h : Outcome s input base r)
    (hbase : base.toConfig = s.toConfig) (hclean : RefusesCleanly s input)
    (hrefusal : r.1.IsRefusal) : Unchanged s r.2 := by
  have hsame : Unchanged s base :=
    ⟨congrArg (fun c : Config => c.current.content) hbase, congrArg Config.file hbase,
      congrArg Config.credentials hbase⟩
  cases h with
  | same => exact hsame
  | waits => exact ⟨hsame.agents, hsame.file, hsame.credentials⟩
  | reloads hanswer => rcases hanswer with rfl | rfl <;> cases hrefusal
  | credentials => cases hrefusal
  | @unwritten _ ref update snapshot hchange hunwritten =>
    by_cases href : ref = s.live
    · subst href
      refine unchanged_of_content ?_
      by_contra hne
      rw [hclean.written update snapshot hchange hne] at hunwritten
      cases hunwritten
    · obtain ⟨hagents, hfile, hcredentials⟩ := unchanged_of_ne href snapshot
      exact ⟨hagents, hfile, hcredentials⟩
  | noDriver hinput hfound hbody hchecked hsame hmissing =>
    refine unchanged_of_content ?_
    by_contra hne
    obtain ⟨d, hd, hne⟩ := hclean.runtime _ _ _ _ _ _ hinput hfound hbody hchecked hsame hne
    rw [← runtime_patched] at hd
    exact hne (hmissing d hd)
  | splices hinput hfound hnull =>
    obtain ⟨b, hb, hnone⟩ := hnull
    exact absurd hnone (hclean.bindings _ _ _ hinput hfound b hb)
  | saves => cases hrefusal

/-! ### What the refusals that are not clean do -/

theorem patchAgent_of_found {id : JsString} {v : Value} {body : Fields} {tag : Nat}
    {a : AgentFields} {w : ConfigMoment} (hfound : s.current.findAgent id = some (tag, a))
    (hbody : v.ownFields = some body) (hchecked : checkPatch body = .ok ())
    (hsame : newRuntime body a = none)
    (hrefused : w.written = false ∨
      ∀ d, getDriver ((body.get? (utf16 "runtime")).or a.runtime) = some d → d = .missing) :
    ∃ e, s.patchAgent id (some v) w =
      (.error e, s.withConfig (s.setSnapshot s.live (s.current.patchAgent tag body w.now))) := by
  rw [ConfigState.patchAgent, hfound, hbody]
  dsimp only
  rw [hchecked, hsame]
  dsimp only
  rw [runtime_patched]
  split
  · exact ⟨_, rfl⟩
  · exact ⟨_, rfl⟩
  · rename_i d hmissing hdriver
    rcases hrefused with hunwritten | hnone
    · rw [finishPatch, ConfigState.saveSnapshot, hunwritten]
      exact ⟨_, rfl⟩
    · exact absurd (hnone d hdriver) hmissing

theorem finishPut_of_unwritten {p : PutAgents} {health : List (JsString × DriverHealth)}
    {w : ConfigMoment} (hchecked : checkAgents p.credentials health p.agents = .ok ())
    (hunwritten : w.written = false) : ∃ e, s.finishPut p health w = (.error e,
      s.withConfig (s.setSnapshot s.live (s.current.putAgents
        (p.agents.map (AgentFields.normalized w.now))
        ((bindingsOf p.bindings).getD s.current.bindings)))) := by
  rw [finishPut, hchecked]
  dsimp only
  rw [ConfigState.saveSnapshot, hunwritten]
  exact ⟨_, rfl⟩

theorem probePut_of_probed {p : PutAgents} {found health : List (JsString × DriverHealth)}
    {todo : List Value} {w : ConfigMoment} (h : probeFrom found todo = .ok (health, [])) :
    s.probePut p found todo w = s.finishPut p health w := by
  rw [probePut, h]

theorem put_of_unwritten {input : ConfigInput} {p : PutAgents}
    {health : List (JsString × DriverHealth)} {now : JsString} (hput : Puts s input p health now)
    (hchecked : checkAgents p.credentials health p.agents = .ok ())
    (hunwritten : input.written = false) :
    ∃ e base, configNext input s = (.error e, ConfigState.withConfig base
      (s.setSnapshot s.live (s.current.putAgents (p.agents.map (AgentFields.normalized now))
        ((bindingsOf p.bindings).getD s.current.bindings)))) := by
  cases hput with
  | @now body fields items agents _ w hfields hitems hagents hprobed =>
    obtain ⟨e, he⟩ := finishPut_of_unwritten (s := s) hchecked hunwritten
    refine ⟨e, s, Eq.trans ?_ he⟩
    rw [configNext, handleRequest, ConfigState.putAgents, hfields]
    dsimp only
    rw [hitems]
    dsimp only
    rw [hagents]
    exact probePut_of_probed hprobed
  | @later n _ found rn rest h _ w hpending hprobed =>
    obtain ⟨e, he⟩ := finishPut_of_unwritten (s := s.endWait n) hchecked hunwritten
    refine ⟨e, s.endWait n, Eq.trans ?_ he⟩
    rw [configNext, hpending]
    exact probePut_of_probed hprobed
  | @done n _ _ h w hpending =>
    obtain ⟨e, he⟩ := finishPut_of_unwritten (s := s.endWait n) hchecked hunwritten
    refine ⟨e, s.endWait n, Eq.trans ?_ he⟩
    rw [configNext, hpending]
    rfl

theorem deleteAgent_of_found {id : JsString} {e : Nat × AgentFields} {w : ConfigMoment}
    (hfound : s.current.findAgent id = some e)
    (hrefused : w.written = false ∨ ∃ b ∈ s.current.bindings, isBindingOf id b = none) :
    ∃ error bindings, s.deleteAgent id w = (.error error, s.withConfig
      (s.setSnapshot s.live ((s.current.spliceAgent id).withBindings bindings))) := by
  rw [deleteAgent, hfound]
  dsimp only
  split
  · exact ⟨_, s.current.bindings, rfl⟩
  · rename_i hnone
    rcases hrefused with hunwritten | ⟨b, hb, hnull⟩
    · rw [ConfigState.saveSnapshot, hunwritten]
      exact ⟨_, _, rfl⟩
    · refine absurd (List.any_eq_true.mpr ⟨b, hb, ?_⟩) hnone
      rw [hnull, Option.isNone_none]

/-- A change in memory that a refusal leaves behind. -/
theorem content_of_refusal {input : ConfigInput} {e : ConfigError} {base : ConfigState}
    {snapshot : Snapshot}
    (h : ((configNext input s).1.IsRefusal → Unchanged s (configNext input s).2))
    (heq : configNext input s =
      (.error e, ConfigState.withConfig base (s.setSnapshot s.live snapshot))) :
    snapshot.content = s.current.content := by
  rw [heq] at h
  exact (content_setSnapshot base snapshot).symm.trans (h trivial).agents

theorem content_withBindings_ne {snapshot : Snapshot} {id : JsString} {e : Nat × AgentFields}
    (h : snapshot.findAgent id = some e) (bindings : List Value) :
    ((snapshot.spliceAgent id).withBindings bindings).content ≠ snapshot.content := by
  intro heq
  have hagents := congrArg AgentsFile.agents heq
  exact content_spliceAgent_ne h (by rw [Snapshot.content, Snapshot.content]; exact congrArg₂ _ hagents rfl)

end Steps

end OsModa.Gateway
