import Chiptune.Graph.Source
import Chiptune.Proofs.Graph.Turns

/-!
# `Chiptune.Proofs.Graph.Sources`: what the sources of a player do with the pool

A source that plays asks the pool for one pair of blocks and overwrites all of it, so neither its
block nor its state knows what was in the pair (`Source.Asks`). A source may also do without
(`Source.Rests`), as a stopped engine does. Whoever does one or the other in all surroundings has
`Turn.Steady` turns (`Source.steady_of_asks`). That is every source but the one that keeps its
blocks (`Source.steady`).

Of the studio a source sees its own engine or relay and changes no other (`Source.of_local`). So
sources that do not play the same one keep apart (`Source.apart`).
-/

set_option autoImplicit false

namespace Chiptune

/-! ### Overwritten blocks -/

/-- A pair that is filled has nothing of what was there. -/
theorem StereoBlock.fill_stale {σ : Type} (next : σ → Frame × σ) (stale other : StereoBlock)
    (s : σ) : stale.fill next s = other.fill next s := by
  rw [stale.fill_eq, other.fill_eq]

namespace Relay

/-- Nor has one that a relay fills, be it enabled or not. -/
theorem fill_stale (r : Relay) {left right left' right' : List Int16} {n : Nat}
    (hleft : left.length = n) (hright : right.length = n) (hleft' : left'.length = n)
    (hright' : right'.length = n) : r.fill left right = r.fill left' right' := by
  have hzeros {samples : List Int16} (h : samples.length = n) :
      samples.map (fun _ => (0 : Int16)) = List.replicate n 0 := by
    rw [List.map_const', h]
  rw [fill, fill]
  split
  · rw [fillPair_of_length nextFrame _ hleft hright, fillPair_of_length nextFrame _ hleft' hright']
  · rw [hzeros hleft, hzeros hright, hzeros hleft', hzeros hright']

end Relay

namespace Source

variable {σ ω : Type} {play : Playing σ ω} {connection : Connection σ} {source : σ} {world : ω}

/-- The source leaves the pool alone and delivers nothing. -/
def Rests (play : Playing σ ω) (source : σ) (world : ω) : Prop :=
  ∃ source' world', ∀ pool, play source world pool = (none, source', world', pool)

/-- The source asks for a pair of blocks. What it makes of the pair does not depend on what is in
it. -/
def Asks (play : Playing σ ω) (source : σ) (world : ω) : Prop :=
  ∃ (block : StereoBlock) (served refused : σ × ω), ∀ pool,
    play source world pool =
      match pool.allocateStereo with
      | (some _, left) => (some block, served.1, served.2, left)
      | (none, left) => (none, refused.1, refused.2, left)

theorem fair_of_asks (h : Asks play connection.source world) {pool : Pool} (hfits : pool.Fits) :
    (Turn.of play connection world pool).Fair := by
  obtain ⟨block, served, refused, hplay⟩ := h
  have hplayed := hplay pool
  rcases Pool.allocateStereo_cases hfits with
    ⟨-, hrequest⟩ | ⟨stale, left, hrequest, hmore, hsize, -⟩
  · rw [hrequest] at hplayed
    unfold Turn.of
    rw [hplayed]
    exact ⟨rfl, rfl⟩
  · rw [hrequest] at hplayed
    unfold Turn.of
    rw [hplayed]
    exact ⟨hsize, hmore⟩

/-- Pools that are alike serve both requests or refuse both. -/
theorem outcome_of_asks (h : Asks play connection.source world) {pool pool' : Pool}
    (hfits : pool.Fits) (halike : pool.Alike pool') :
    (Turn.of play connection world pool).given = (Turn.of play connection world pool').given ∧
      (Turn.of play connection world pool).world = (Turn.of play connection world pool').world := by
  obtain ⟨block, served, refused, hplay⟩ := h
  have hfits' : pool'.Fits := halike.symm.fits hfits
  have hsame := halike.available
  unfold Turn.of Turn.given
  rw [hplay pool, hplay pool']
  rcases Pool.allocateStereo_cases hfits with ⟨hfew, hrequest⟩ | ⟨stale, left, hrequest, hmore, -⟩
  · rcases Pool.allocateStereo_cases hfits' with ⟨-, hrequest'⟩ | ⟨stale', left', -, hmore', -⟩
    · rw [hrequest, hrequest']
      exact ⟨rfl, rfl⟩
    · omega
  · rcases Pool.allocateStereo_cases hfits' with ⟨hfew', -⟩ | ⟨stale', left', hrequest', -, -⟩
    · omega
    · rw [hrequest, hrequest']
      exact ⟨rfl, rfl⟩

/-- A source that asks or rests, whatever its surroundings are, is steady. -/
theorem steady_of_asks
    (h : ∀ world, Rests play connection.source world ∨ Asks play connection.source world) :
    Turn.Steady play connection := by
  have houtcome (world : ω) {pool pool' : Pool} (hfits : pool.Fits) (halike : pool.Alike pool') :
      (Turn.of play connection world pool).given = (Turn.of play connection world pool').given ∧
        (Turn.of play connection world pool).world
          = (Turn.of play connection world pool').world := by
    rcases h world with ⟨source', world', hplay⟩ | hasks
    · unfold Turn.of Turn.given
      rw [hplay pool, hplay pool']
      exact ⟨rfl, rfl⟩
    · exact outcome_of_asks hasks hfits halike
  refine ⟨?_, fun world _ _ hfits halike => (houtcome world hfits halike).1,
    fun world _ _ hfits halike => (houtcome world hfits halike).2⟩
  intro world pool hfits
  rcases h world with ⟨source', world', hplay⟩ | hasks
  · unfold Turn.of
    rw [hplay pool]
    exact ⟨rfl, rfl⟩
  · exact fair_of_asks hasks hfits

/-! ### Each of the sources -/

section
variable {index : Nat} {studio : Studio}

/-- An engine that is stopping rests. -/
theorem engine_rests {e : Engine} (he : studio.engines[index]? = some e)
    (hstopping : e.stopping = true) : Rests Source.play (.engine index) studio := by
  refine ⟨.engine index, studio.setEngine index e, ?_⟩
  intro pool
  simp only [Source.play, he, Engine.update, hstopping, if_true]

/-- Any other engine asks for a pair. -/
theorem engine_asks {e : Engine} (he : studio.engines[index]? = some e)
    (hrunning : e.stopping = false) : Asks Source.play (.engine index) studio := by
  let filled := StereoBlock.silence.fill Engine.nextFrame e.beginBlock
  refine ⟨filled.1, (.engine index, studio.setEngine index filled.2.publish),
    (.engine index, studio.setEngine index { e with blocksSkipped := e.blocksSkipped + 1 }), ?_⟩
  intro pool
  cases hrequest : pool.allocateStereo with
  | mk request left =>
    cases request with
    | none =>
      simp only [Source.play, he, Engine.update, hrunning, Bool.false_eq_true, if_false, hrequest]
    | some stale =>
      have hfilled : stale.fill Engine.nextFrame e.beginBlock = filled := stale.fill_stale _ _ _
      simp only [Source.play, he, Engine.update, hrunning, Bool.false_eq_true, if_false, hrequest,
        hfilled]

/-- A relay always asks for a pair. -/
theorem relay_asks {r : Relay} (hr : studio.relays[index]? = some r) :
    Asks Source.play (.relay index) studio := by
  let silence := StereoBlock.silence
  let filled := r.fill silence.left.toList silence.right.toList
  refine ⟨.ofSides filled.1 (by simp [filled]) (by simp [filled]),
    (.relay index, studio.setRelay index filled.2), (.relay index, studio.setRelay index r), ?_⟩
  intro pool
  cases hrequest : pool.allocateStereo with
  | mk request left =>
    cases request with
    | none => simp only [Source.play, hr, Relay.update, hrequest]
    | some stale =>
      have hfilled : r.fill stale.left.toList stale.right.toList = filled :=
        r.fill_stale (n := blockSize) (by simp) (by simp) (by simp) (by simp)
      simp only [Source.play, hr, Relay.update, hrequest, hfilled]

end

/-- Every source but the one that keeps its blocks is steady. -/
theorem steady (id : ConnectionId) {source : Source} (h : source ≠ .hoarder) :
    Turn.Steady Source.play ⟨id, source⟩ := by
  refine steady_of_asks ?_
  intro studio
  cases source with
  | constant level =>
    refine Or.inr ⟨⟨.filled level, .filled (-level)⟩, (.constant level, studio),
      (.constant level, studio), ?_⟩
    intro pool
    cases hrequest : pool.allocateStereo with
    | mk request left =>
      cases request with
      | none => simp only [Source.play, hrequest]
      | some stale => simp only [Source.play, hrequest]
  | ramp level =>
    let filled := StereoBlock.silence.fill rampFrame level
    refine Or.inr ⟨filled.1, (.ramp filled.2, studio), (.ramp level, studio), ?_⟩
    intro pool
    cases hrequest : pool.allocateStereo with
    | mk request left =>
      cases request with
      | none => simp only [Source.play, hrequest]
      | some stale =>
        have hfilled : stale.fill rampFrame level = filled := stale.fill_stale _ _ _
        simp only [Source.play, hrequest, hfilled]
  | idle => exact Or.inl ⟨.idle, studio, fun pool => rfl⟩
  | hoarder => exact absurd rfl h
  | engine index =>
    cases he : studio.engines[index]? with
    | none =>
      refine Or.inl ⟨.engine index, studio, ?_⟩
      intro pool
      simp only [Source.play, he]
    | some e =>
      cases hstopping : e.stopping with
      | true => exact Or.inl (engine_rests he hstopping)
      | false => exact Or.inr (engine_asks he hstopping)
  | relay index =>
    cases hr : studio.relays[index]? with
    | none =>
      refine Or.inl ⟨.relay index, studio, ?_⟩
      intro pool
      simp only [Source.play, hr]
    | some r => exact Or.inr (relay_asks hr)

/-! ### Sources at different places -/

/-- What there is at a source's place in the studio. -/
abbrev Part := Option Engine × Option Relay

/-- The part of a studio that a source plays. -/
def part (studio : Studio) : Source → Part
  | engine index => (studio.engines[index]?, none)
  | relay index => (none, studio.relays[index]?)
  | constant _ | ramp _ | idle | hoarder => (none, none)

/-- The studio with a source's part in the place of what was there. -/
def put (studio : Studio) (source : Source) (part : Part) : Studio :=
  match source, part with
  | engine index, (some e, _) => studio.setEngine index e
  | relay index, (_, some r) => studio.setRelay index r
  | _, _ => studio

/-- A source sees its part of the studio and changes no other. -/
theorem of_local (id : ConnectionId) (source : Source) (pool : Pool) :
    ∃ (given : Part → Option StereoBlock × Connection Source) (left : Part → Part), ∀ studio,
      let turn := Turn.of Source.play ⟨id, source⟩ studio pool
      turn.given = given (source.part studio) ∧
        turn.world = source.put studio (left (source.part studio)) := by
  cases source with
  | engine index =>
    refine ⟨fun part => (part.1.bind fun e => (e.update pool).1, ⟨id, engine index⟩),
      fun part => (part.1.map fun e => (e.update pool).2.1, none), ?_⟩
    intro studio
    simp only [Turn.of, Turn.given, Source.play, part]
    cases studio.engines[index]? with
    | some e => exact ⟨rfl, rfl⟩
    | none => exact ⟨rfl, rfl⟩
  | relay index =>
    refine ⟨fun part => (part.2.bind fun r => (r.update pool).1, ⟨id, relay index⟩),
      fun part => (none, part.2.map fun r => (r.update pool).2.1), ?_⟩
    intro studio
    simp only [Turn.of, Turn.given, Source.play, part]
    cases studio.relays[index]? with
    | some r => exact ⟨rfl, rfl⟩
    | none => exact ⟨rfl, rfl⟩
  | constant level =>
    refine ⟨fun _ => (Turn.of Source.play ⟨id, .constant level⟩ {} pool).given, fun p => p, ?_⟩
    intro studio
    cases hrequest : pool.allocateStereo with
    | mk request left =>
      cases request with
      | some stale => simp only [Turn.of, Turn.given, Source.play, hrequest, put, and_self]
      | none => simp only [Turn.of, Turn.given, Source.play, hrequest, put, and_self]
  | ramp level =>
    refine ⟨fun _ => (Turn.of Source.play ⟨id, .ramp level⟩ {} pool).given, fun p => p, ?_⟩
    intro studio
    cases hrequest : pool.allocateStereo with
    | mk request left =>
      cases request with
      | some stale => simp only [Turn.of, Turn.given, Source.play, hrequest, put, and_self]
      | none => simp only [Turn.of, Turn.given, Source.play, hrequest, put, and_self]
  | idle => exact ⟨fun _ => (none, ⟨id, .idle⟩), fun p => p, fun studio => ⟨rfl, rfl⟩⟩
  | hoarder => exact ⟨fun _ => (none, ⟨id, .hoarder⟩), fun p => p, fun studio => ⟨rfl, rfl⟩⟩

theorem put_of_isSignal {source : Source} (h : source.isSignal = true) (studio : Studio)
    (p : Part) : source.put studio p = studio := by
  cases source with
  | engine index => nomatch h
  | relay index => nomatch h
  | _ => rfl

theorem part_of_isSignal {source : Source} (h : source.isSignal = true) (studio : Studio) :
    source.part studio = (none, none) := by
  cases source with
  | engine index => nomatch h
  | relay index => nomatch h
  | _ => rfl

section
variable {one other : Source} (h : one ≠ other)
include h

/-- What one source changes is not there for another one. -/
theorem part_put (studio : Studio) (p : Part) :
    other.part (one.put studio p) = other.part studio := by
  obtain ⟨e?, r?⟩ := p
  cases one with
  | engine index =>
    cases e? with
    | none => rfl
    | some e =>
      cases other with
      | engine index' =>
        have hne : index ≠ index' := fun heq => h (congrArg engine heq)
        exact congrArg (·, none) (Array.getElem?_setIfInBounds_ne hne)
      | _ => rfl
  | relay index =>
    cases r? with
    | none => rfl
    | some r =>
      cases other with
      | relay index' =>
        have hne : index ≠ index' := fun heq => h (congrArg relay heq)
        exact congrArg (none, ·) (Array.getElem?_setIfInBounds_ne hne)
      | _ => rfl
  | _ => rfl

/-- The changes of two sources can be made in any order. -/
theorem put_comm (studio : Studio) (p q : Part) :
    other.put (one.put studio p) q = one.put (other.put studio q) p := by
  obtain ⟨e?, r?⟩ := p
  obtain ⟨e'?, r'?⟩ := q
  cases one with
  | engine index =>
    cases other with
    | engine index' =>
      have hne : index ≠ index' := fun heq => h (congrArg engine heq)
      cases e? with
      | none => rfl
      | some e =>
        cases e'? with
        | none => rfl
        | some e' =>
          exact congrArg (Studio.mk · studio.relays) (Array.setIfInBounds_comm e e' hne)
    | relay index' =>
      cases e? with
      | none => rfl
      | some e =>
        cases r'? with
        | none => rfl
        | some r' => rfl
    | _ => rfl
  | relay index =>
    cases other with
    | engine index' =>
      cases r? with
      | none => rfl
      | some r =>
        cases e'? with
        | none => rfl
        | some e' => rfl
    | relay index' =>
      have hne : index ≠ index' := fun heq => h (congrArg relay heq)
      cases r? with
      | none => rfl
      | some r =>
        cases r'? with
        | none => rfl
        | some r' => exact congrArg (Studio.mk studio.engines ·) (Array.setIfInBounds_comm r r' hne)
    | _ => rfl
  | _ => rfl

end

/-- Two sources keep apart unless they play the same engine or the same relay. -/
theorem apart (id id' : ConnectionId) {one other : Source}
    (h : one ≠ other ∨ one.isSignal = true) :
    Turn.Apart Source.play ⟨id, one⟩ ⟨id', other⟩ := by
  have hpart (studio : Studio) (p : Part) :
      other.part (one.put studio p) = other.part studio := by
    rcases h with hne | hsignal
    · exact part_put hne studio p
    · rw [put_of_isSignal hsignal]
  have hpart' (studio : Studio) (p : Part) : one.part (other.put studio p) = one.part studio := by
    rcases h with hne | hsignal
    · exact part_put hne.symm studio p
    · rw [part_of_isSignal hsignal, part_of_isSignal hsignal]
  have hcomm (studio : Studio) (p q : Part) :
      other.put (one.put studio p) q = one.put (other.put studio q) p := by
    rcases h with hne | hsignal
    · exact put_comm hne studio p q
    · rw [put_of_isSignal hsignal, put_of_isSignal hsignal]
  refine ⟨?_, ?_, ?_⟩
  · intro studio pool
    obtain ⟨given, left, hone⟩ := of_local id one pool
    obtain ⟨given', left', hother⟩ := of_local id' other pool
    rw [(hone studio).2, (hother _).1, (hother studio).1, hpart]
  · intro studio pool
    obtain ⟨given, left, hone⟩ := of_local id one pool
    obtain ⟨given', left', hother⟩ := of_local id' other pool
    rw [(hother studio).2, (hone _).1, (hone studio).1, hpart']
  · intro studio pool
    obtain ⟨given, left, hone⟩ := of_local id one pool
    obtain ⟨given', left', hother⟩ := of_local id' other pool
    rw [(hone studio).2, (hother _).2, (hother studio).2, (hone _).2, hpart, hpart', hcomm]

end Source

end Chiptune
