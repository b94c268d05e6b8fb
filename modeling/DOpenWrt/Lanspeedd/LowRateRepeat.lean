import Mathlib.Data.List.TakeWhile
import DOpenWrt.Lanspeedd.LowRateWindow

/-!
# One snapshot twice

The check that a segment goes on from the last one comes before the check that it is the last one. So a segment that is
observed again does not go on from itself, and the history before it is lost.
-/

namespace Lanspeedd

namespace NssLowRateWindow

variable {windowMs : ℕ} {history : List CounterSegment} {segment : CounterSegment} {window : NssLowRateWindow}
  {raw : AccessEdgeSnapshot} {key : EdgeKey} {observation : EdgeDirectionObservation}

/-! ### One history -/

/-- The part of the history that the segment goes on from. -/
def kept (history : List CounterSegment) (segment : CounterSegment) : List CounterSegment :=
  if history.getLast?.any fun previous => !continues previous segment then [] else history

/-- The segment goes on from the history, and some of the history is within the window. -/
def Joins (windowMs : ℕ) (history : List CounterSegment) (segment : CounterSegment) : Prop :=
  ∃ old ∈ kept history segment, segment.endMs - old.startMs ≤ windowMs

theorem endMs_of_continues {previous : CounterSegment} (h : continues previous segment = true) :
    previous.endMs = segment.startMs := by
  unfold continues at h
  simp only [Bool.not_eq_true', Bool.or_eq_false_iff, decide_eq_false_iff_not, not_not] at h
  exact h.1.1.1.1

/-- A segment is never taken for the last one of a history it goes on from. -/
theorem pushSegment_eq (hlt : segment.startMs < segment.endMs) : pushSegment windowMs history segment =
    (kept history segment ++ [segment]).dropWhile fun first => segment.endMs - first.startMs > windowMs := by
  have hnew : (kept history segment).getLast?.all (fun previous => previous.endMs ≠ segment.endMs) = true := by
    unfold kept
    split_ifs with hany
    · rfl
    · cases hlast : history.getLast? with
      | none => rfl
      | some previous =>
        rw [hlast, Option.any_some, Bool.not_eq_true', Bool.not_eq_false] at hany
        have hend := endMs_of_continues hany
        rw [Option.all_some, decide_eq_true_eq]
        omega
  exact congrArg (List.dropWhile fun first : CounterSegment => decide (segment.endMs - first.startMs > windowMs)) (if_pos hnew)

theorem not_continues_self (hlt : segment.startMs < segment.endMs) : continues segment segment = false := by
  cases h : continues segment segment with
  | false => rfl
  | true =>
    have hend := endMs_of_continues h
    omega

theorem kept_nil (segment : CounterSegment) : kept [] segment = [] := rfl

theorem getLast?_dropWhile_concat {α : Type*} (p : α → Bool) (l : List α) (a : α) :
    ((l ++ [a]).dropWhile p).getLast? = none ∨ ((l ++ [a]).dropWhile p).getLast? = some a := by
  by_cases hnil : (l ++ [a]).dropWhile p = []
  · rw [hnil]
    exact .inl rfl
  · obtain ⟨pre, hpre⟩ := List.dropWhile_suffix p (l := l ++ [a])
    have hlast : (pre ++ (l ++ [a]).dropWhile p).getLast? = some a := by
      rw [hpre, List.getLast?_concat]
    rw [List.getLast?_append_of_ne_nil _ hnil] at hlast
    exact .inr hlast

/-- Of what is there after a segment was pushed, nothing is kept when it comes again. -/
theorem kept_pushSegment (hlt : segment.startMs < segment.endMs) :
    kept (pushSegment windowMs history segment) segment = [] := by
  rw [pushSegment_eq hlt]
  generalize hresult : (kept history segment ++ [segment]).dropWhile _ = result
  rcases getLast?_dropWhile_concat (fun first => decide (segment.endMs - first.startMs > windowMs))
    (kept history segment) segment with hlast | hlast
  · rw [hresult] at hlast
    rw [List.getLast?_eq_none_iff.1 hlast, kept_nil]
  · rw [hresult] at hlast
    unfold kept
    rw [hlast, Option.any_some, not_continues_self hlt]
    rfl

theorem pushSegment_again (hlt : segment.startMs < segment.endMs) :
    pushSegment windowMs (pushSegment windowMs history segment) segment = pushSegment windowMs [] segment := by
  rw [pushSegment_eq hlt, kept_pushSegment hlt, pushSegment_eq hlt, kept_nil]

theorem length_pushSegment_nil (hlt : segment.startMs < segment.endMs) :
    (pushSegment windowMs [] segment).length ≤ 1 := by
  rw [pushSegment_eq hlt, kept_nil]
  exact (List.dropWhile_suffix _).length_le

/-- The history is the segment alone, unless the segment joins it. -/
theorem pushSegment_eq_nil_iff (hlt : segment.startMs < segment.endMs) :
    pushSegment windowMs history segment = pushSegment windowMs [] segment ↔ ¬ Joins windowMs history segment := by
  constructor
  · rintro hsame ⟨old, hold, hwithin⟩
    have hlength := @length_pushSegment_nil windowMs segment hlt
    rw [← hsame, pushSegment_eq hlt] at hlength
    have hsplit : (kept history segment ++ [segment]).dropWhile
        (fun first => decide (segment.endMs - first.startMs > windowMs)) =
        (kept history segment).dropWhile (fun first => decide (segment.endMs - first.startMs > windowMs)) ++ [segment] := by
      rw [List.dropWhile_append, if_neg]
      rw [List.isEmpty_iff, List.dropWhile_eq_nil_iff]
      intro hall
      have hout := of_decide_eq_true (hall old hold)
      omega
    have hne : (kept history segment).dropWhile (fun first => decide (segment.endMs - first.startMs > windowMs)) ≠ [] := by
      rw [Ne, List.dropWhile_eq_nil_iff]
      intro hall
      have hout := of_decide_eq_true (hall old hold)
      omega
    rw [hsplit, List.length_append, List.length_singleton] at hlength
    have hpos := List.length_pos_iff.2 hne
    omega
  · intro hnone
    rw [pushSegment_eq hlt, pushSegment_eq hlt, kept_nil, List.nil_append, List.dropWhile_append, if_pos]
    rw [List.isEmpty_iff, List.dropWhile_eq_nil_iff]
    intro old hold
    rw [decide_eq_true_eq]
    by_contra hwithin
    exact hnone ⟨old, hold, Nat.le_of_not_lt hwithin⟩

/-! ### All histories -/

theorem mem_keys {observations : List (EdgeKey × EdgeDirectionObservation)} (h : (key, observation) ∈ observations) :
    key ∈ observations.map fun o => o.1 := List.mem_map.2 ⟨_, h, rfl⟩

theorem foldl_observeDirection {observations : List (EdgeKey × EdgeDirectionObservation)}
    (hkeys : (observations.map fun o => o.1).Nodup) (edge : EdgeKey → Option (List CounterSegment))
    (h : (key, observation) ∈ observations) :
    observations.foldl (observeDirection windowMs) edge key =
      observation.segment.map fun segment => pushSegment windowMs ((edge key).getD []) segment := by
  have hother : ∀ (rest : List (EdgeKey × EdgeDirectionObservation)) (edge : EdgeKey → Option (List CounterSegment)),
      key ∉ rest.map (fun o => o.1) → rest.foldl (observeDirection windowMs) edge key = edge key := by
    intro rest
    induction rest with
    | nil => intros; rfl
    | cons o rest ih =>
      intro edge hnot
      rw [List.map_cons, List.mem_cons, not_or] at hnot
      rw [List.foldl_cons, ih _ hnot.2]
      exact Function.update_of_ne hnot.1 _ _
  induction observations generalizing edge with
  | nil => exact absurd h List.not_mem_nil
  | cons o observations ih =>
    rw [List.map_cons, List.nodup_cons] at hkeys
    rw [List.foldl_cons]
    rcases List.mem_cons.1 h with rfl | h
    · rw [hother observations _ hkeys.1]
      exact Function.update_self ..
    · have hne : key ≠ o.1 := by
        rintro rfl
        exact hkeys.1 (mem_keys h)
      rw [ih hkeys.2 _ h]
      unfold observeDirection
      rw [Function.update_of_ne hne]

theorem nodup_observations (hkeys : (raw.clients.map fun client => client.attachment.key).Nodup) :
    (raw.observations.map fun o => o.1).Nodup := by
  unfold AccessEdgeSnapshot.observations
  rw [List.map_flatMap]
  generalize raw.clients = clients at hkeys
  induction clients with
  | nil => exact List.nodup_nil
  | cons client clients ih =>
    rw [List.map_cons, List.nodup_cons] at hkeys
    rw [List.flatMap_cons]
    refine List.nodup_append.2 ⟨?_, ih hkeys.2, ?_⟩
    · simp
    · intro a ha b hb hab
      subst hab
      obtain ⟨other, hother, hb⟩ := List.mem_flatMap.1 hb
      have hkey : client.attachment.key = other.attachment.key := by
        simp only [List.map_cons, List.map_nil, List.mem_cons, List.not_mem_nil, or_false] at ha hb
        rcases ha with rfl | rfl <;> rcases hb with hb | hb <;> exact congrArg Prod.fst hb
      exact hkeys.1 (List.mem_map.2 ⟨other, hother, hkey.symm⟩)

/-- The histories after a snapshot. -/
theorem observeEdge_edge (hkeys : (raw.clients.map fun client => client.attachment.key).Nodup)
    (h : (key, observation) ∈ raw.observations) : (window.observeEdge raw).edge key =
      observation.segment.map fun segment => pushSegment window.windowMs ((window.edge key).getD []) segment := by
  show (if key ∈ raw.observations.map (fun o => o.1) then _ else none) = _
  rw [if_pos (mem_keys h), foldl_observeDirection (nodup_observations hkeys) _ h]

theorem observeEdge_edge_of_not_mem (h : key ∉ raw.observations.map fun o => o.1) :
    (window.observeEdge raw).edge key = none := if_neg h

/-- The same snapshot for the histories it has just made. -/
theorem observeEdge_again_iff (hkeys : (raw.clients.map fun client => client.attachment.key).Nodup)
    (hsegments : ∀ o ∈ raw.observations, ∀ segment, o.2.segment = some segment → segment.startMs < segment.endMs)
    {window' : NssLowRateWindow} (hedge : window'.edge = (window.observeEdge raw).edge)
    (hwindowMs : window'.windowMs = window.windowMs) :
    (window'.observeEdge raw).edge = window'.edge ↔
      ∀ o ∈ raw.observations, ∀ segment, o.2.segment = some segment →
        ¬ Joins window.windowMs ((window.edge o.1).getD []) segment := by
  have hagain : ∀ o ∈ raw.observations, ∀ segment, o.2.segment = some segment →
      (window'.observeEdge raw).edge o.1 = some (pushSegment window.windowMs [] segment) ∧
        window'.edge o.1 = some (pushSegment window.windowMs ((window.edge o.1).getD []) segment) := by
    rintro ⟨key, observation⟩ ho segment hsegment
    have hfirst : (window.observeEdge raw).edge key = _ := observeEdge_edge hkeys ho
    have hsecond : (window'.observeEdge raw).edge key = _ := observeEdge_edge hkeys ho
    dsimp only at hsegment
    rw [hsegment, Option.map_some] at hfirst hsecond
    rw [hsecond, hwindowMs, hedge, hfirst, Option.getD_some, pushSegment_again (hsegments _ ho segment hsegment)]
    exact ⟨rfl, rfl⟩
  constructor
  · intro hsame o ho segment hsegment
    obtain ⟨hsecond, hfirst⟩ := hagain o ho segment hsegment
    rw [hsame, hfirst] at hsecond
    exact (pushSegment_eq_nil_iff (hsegments o ho segment hsegment)).1 (Option.some.inj hsecond)
  · intro hnone
    funext key
    by_cases hkey : key ∈ raw.observations.map fun o => o.1
    · obtain ⟨⟨_, observation⟩, ho, rfl⟩ := List.mem_map.1 hkey
      cases hsegment : observation.segment with
      | none =>
        rw [hedge, observeEdge_edge hkeys ho, observeEdge_edge hkeys ho, hsegment]
        rfl
      | some segment =>
        obtain ⟨hsecond, hfirst⟩ := hagain _ ho segment hsegment
        rw [hsecond, hfirst, (pushSegment_eq_nil_iff (hsegments _ ho segment hsegment)).2 (hnone _ ho segment hsegment)]
    · rw [hedge, observeEdge_edge_of_not_mem hkey, observeEdge_edge_of_not_mem hkey]

/-! ### The window that is published -/

variable {window' : NssLowRateWindow} {interfaceSampleMs interfaceSampleMs' : ℕ}

theorem commonWindow_congr (h : window.edge = window'.edge) (keys : List EdgeKey) (startMs : ℕ) (endMs : Option ℕ) :
    window.commonWindow keys startMs endMs = window'.commonWindow keys startMs endMs := by
  induction keys generalizing startMs endMs with
  | nil => rfl
  | cons key keys ih =>
    unfold commonWindow
    simp only [h, ih]

theorem aggregateClient_congr (h : window.edge = window'.edge) : window.aggregateClient = window'.aggregateClient := by
  unfold aggregateClient aggregateDirection
  rw [h]

/-- What is published depends on the histories only. -/
theorem publish_congr (h : window.edge = window'.edge) :
    (window.publish raw interfaceSampleMs).map (fun r => (r.1.publishedWindow, r.2)) =
      (window'.publish raw interfaceSampleMs').map fun r => (r.1.publishedWindow, r.2) := by
  unfold publish commonEdgeWindow aggregateEdge
  rw [commonWindow_congr h, aggregateClient_congr h]
  cases window'.commonWindow (edgeKeys raw) 0 none with
  | none => rfl
  | some r =>
    obtain ⟨startMs, _ | endMs⟩ := r
    · rfl
    · show Option.map _ (if _ then _ else _) = Option.map _ (if _ then _ else _)
      split_ifs
      · rfl
      · cases raw.clients.mapM (window'.aggregateClient startMs endMs) <;> rfl

theorem publish_edge {r : NssLowRateWindow × AccessEdgeSnapshot} (h : window.publish raw interfaceSampleMs = some r) :
    r.1.edge = window.edge ∧ r.1.windowMs = window.windowMs ∧ r.1.highWatermarkBps = window.highWatermarkBps ∧
      r.1.highRate = window.highRate ∧ r.1.publishedWindow ≠ none := by
  unfold publish at h
  obtain ⟨⟨startMs, endMs⟩, -, h⟩ := Option.bind_eq_some_iff.1 h
  dsimp only at h
  split_ifs at h
  obtain ⟨published, -, h⟩ := Option.bind_eq_some_iff.1 h
  cases h
  exact ⟨rfl, rfl, rfl, rfl, Option.some_ne_none _⟩

/-- The segments of the snapshot span one window, long enough to be published and not too long to be kept. -/
def OneWindow (windowMs : ℕ) (raw : AccessEdgeSnapshot) : Prop :=
  ∃ startMs endMs, minPublishWindowMs ≤ endMs - startMs ∧ endMs - startMs ≤ windowMs ∧
    ∀ o ∈ raw.observations, ∃ segment, o.2.segment = some segment ∧ segment.startMs = startMs ∧
      segment.endMs = endMs ∧ segment.direction = o.1.2

theorem pushSegment_nil (hlt : segment.startMs < segment.endMs) : pushSegment windowMs [] segment =
    if segment.endMs - segment.startMs ≤ windowMs then [segment] else [] := by
  rw [pushSegment_eq hlt, kept_nil, List.nil_append, List.dropWhile_cons]
  by_cases h : segment.endMs - segment.startMs ≤ windowMs
  · rw [if_pos h, if_neg (by rw [decide_eq_true_eq]; omega)]
  · rw [if_neg h, if_pos (by rw [decide_eq_true_eq]; omega)]
    rfl

/-- Every history is that of the last segment alone. -/
def Alone (window : NssLowRateWindow) (raw : AccessEdgeSnapshot) : Prop :=
  ∀ o ∈ raw.observations, window.edge o.1 = o.2.segment.map fun segment => pushSegment window.windowMs [] segment

theorem commonWindow_of_same {startMs endMs : ℕ} {keys : List EdgeKey}
    (h : ∀ key ∈ keys, ∃ segment, window.edge key = some [segment] ∧ segment.startMs = startMs ∧ segment.endMs = endMs)
    {s : ℕ} (hs : s ≤ startMs) {e : Option ℕ} (he : e = none ∨ e = some endMs) :
    window.commonWindow keys s e = some (if keys = [] then (s, e) else (startMs, some endMs)) := by
  induction keys generalizing s e with
  | nil => rfl
  | cons key keys ih =>
    obtain ⟨segment, hedge, hstart, hend⟩ := h key (List.mem_cons_self ..)
    have hlast : ¬ (e.any fun current => current ≠ endMs) = true := by
      rcases he with rfl | rfl
      · exact Bool.false_ne_true
      · rw [Option.any_some, decide_eq_true_eq, not_not]
    unfold commonWindow
    rw [hedge]
    show (if e.any (fun current => current ≠ segment.endMs) then none
      else window.commonWindow keys (max s segment.startMs) (some segment.endMs)) = _
    rw [hend, hstart, if_neg hlast, Nat.max_eq_right hs,
      ih (fun key hkey => h key (List.mem_cons_of_mem _ hkey)) (Nat.le_refl _) (.inr rfl), if_neg (List.cons_ne_nil _ _)]
    split_ifs <;> rfl

theorem aggregateDirection_of_alone {direction : Direction} {attachment : AttachmentKey}
    (h : window.edge (attachment, direction) = some [segment]) (hdirection : segment.direction = direction) :
    (window.aggregateDirection attachment direction segment.startMs segment.endMs).isSome := by
  have hselected : [segment].filter (fun s => decide (segment.startMs ≤ s.startMs) && decide (s.endMs ≤ segment.endMs)) =
      [segment] := List.filter_cons_of_pos (by simp)
  unfold aggregateDirection
  rw [h]
  dsimp only [Option.bind_eq_bind, Option.bind_some]
  rw [hselected]
  simp [hdirection]

theorem segment_of_aggregateDirection {direction : Direction} {attachment : AttachmentKey} {startMs endMs : ℕ}
    {history : List CounterSegment} (h : window.edge (attachment, direction) = some history)
    (hone : ∀ s ∈ history, s = segment)
    (hsome : (window.aggregateDirection attachment direction startMs endMs).isSome) :
    segment ∈ history ∧ segment.startMs = startMs ∧ segment.endMs = endMs ∧ segment.direction = direction := by
  obtain ⟨result, hresult⟩ := Option.isSome_iff_exists.1 hsome
  unfold aggregateDirection at hresult
  rw [h] at hresult
  obtain ⟨_, hhistory, hresult⟩ := Option.bind_eq_some_iff.1 hresult
  cases hhistory
  obtain ⟨first, hfirst, hresult⟩ := Option.bind_eq_some_iff.1 hresult
  obtain ⟨last, hlast, hresult⟩ := Option.bind_eq_some_iff.1 hresult
  have hfirstMem := List.mem_of_mem_head? hfirst
  have hlastMem := List.mem_of_mem_getLast? hlast
  obtain rfl := hone first (List.mem_filter.1 hfirstMem).1
  obtain rfl := hone last (List.mem_filter.1 hlastMem).1
  split_ifs at hresult with hbad
  simp only [Bool.or_eq_true, not_or, decide_eq_true_eq, not_not] at hbad
  refine ⟨(List.mem_filter.1 hlastMem).1, hbad.1.1.1, hbad.1.1.2, ?_⟩
  have hsame := hbad.2
  rw [List.any_eq_true] at hsame
  by_contra hdirection
  exact hsame ⟨last, hlastMem, by simp [hdirection]⟩

theorem isSome_mapM {α β : Type} {f : α → Option β} {l : List α} (h : ∀ a ∈ l, (f a).isSome) : (l.mapM f).isSome := by
  induction l with
  | nil => rfl
  | cons a l ih =>
    obtain ⟨b, hb⟩ := Option.isSome_iff_exists.1 (h a (List.mem_cons_self ..))
    obtain ⟨bs, hbs⟩ := Option.isSome_iff_exists.1 (ih fun a ha => h a (List.mem_cons_of_mem _ ha))
    rw [List.mapM_cons, hb, hbs]
    rfl

theorem isSome_of_mapM {α β : Type} {f : α → Option β} {l : List α} (h : (l.mapM f).isSome) : ∀ a ∈ l, (f a).isSome := by
  induction l with
  | nil => exact fun a ha => absurd ha List.not_mem_nil
  | cons a l ih =>
    intro c hc
    rw [List.mapM_cons] at h
    cases ha : f a with
    | none =>
      rw [ha] at h
      cases h
    | some b =>
      cases hl : l.mapM f with
      | none =>
        rw [ha, hl] at h
        cases h
      | some bs =>
        rcases List.mem_cons.1 hc with rfl | hc
        · rw [ha]
          rfl
        · exact ih (by rw [hl]; rfl) c hc

theorem mem_observations {client : EdgeClientObservation} (h : client ∈ raw.clients) :
    ((client.attachment.key, Direction.tx), client.tx) ∈ raw.observations ∧
      ((client.attachment.key, Direction.rx), client.rx) ∈ raw.observations :=
  ⟨List.mem_flatMap.2 ⟨client, h, List.mem_cons_self ..⟩,
    List.mem_flatMap.2 ⟨client, h, List.mem_cons_of_mem _ (List.mem_cons_self ..)⟩⟩

theorem client_of_observation {o : EdgeKey × EdgeDirectionObservation} (h : o ∈ raw.observations) :
    ∃ client ∈ raw.clients, o = ((client.attachment.key, .tx), client.tx) ∨ o = ((client.attachment.key, .rx), client.rx) := by
  obtain ⟨client, hclient, ho⟩ := List.mem_flatMap.1 h
  refine ⟨client, hclient, ?_⟩
  rcases List.mem_cons.1 ho with rfl | ho
  · exact .inl rfl
  · exact .inr (List.mem_singleton.1 ho)

/-- Segments that stand alone are published again as they are, if they span one window. -/
theorem publish_isSome_iff (halone : Alone window raw) (hclients : raw.clients ≠ [])
    (hsegments : ∀ o ∈ raw.observations, ∃ segment, o.2.segment = some segment ∧ segment.startMs < segment.endMs) :
    (window.publish raw interfaceSampleMs).isSome ↔ OneWindow window.windowMs raw := by
  have hkeys : edgeKeys raw ≠ [] := by
    obtain ⟨client, hclient⟩ := List.exists_mem_of_ne_nil _ hclients
    exact List.ne_nil_of_mem (List.mem_map.2 ⟨_, (mem_observations hclient).1, rfl⟩)
  constructor
  · intro hsome
    obtain ⟨r, hr⟩ := Option.isSome_iff_exists.1 hsome
    unfold publish at hr
    obtain ⟨⟨startMs, endMs⟩, -, hr⟩ := Option.bind_eq_some_iff.1 hr
    dsimp only at hr
    split_ifs at hr with hmin
    obtain ⟨published, hpublished, -⟩ := Option.bind_eq_some_iff.1 hr
    obtain ⟨clients, hmapM, -⟩ := Option.bind_eq_some_iff.1 hpublished
    have hspans : ∀ o ∈ raw.observations, ∃ segment, o.2.segment = some segment ∧ segment.startMs = startMs ∧
        segment.endMs = endMs ∧ segment.direction = o.1.2 ∧ endMs - startMs ≤ window.windowMs := by
      intro o ho
      obtain ⟨segment, hsegment, hlt⟩ := hsegments o ho
      have hedge := halone o ho
      rw [hsegment, Option.map_some, pushSegment_nil hlt] at hedge
      have hdirection : (window.aggregateDirection o.1.1 o.1.2 startMs endMs).isSome := by
        obtain ⟨client, hclient, ho⟩ := client_of_observation ho
        have hclientSome := isSome_of_mapM (by rw [hmapM]; rfl) client hclient
        unfold aggregateClient at hclientSome
        rcases ho with rfl | rfl
        · dsimp only
          cases htx : window.aggregateDirection client.attachment.key .tx startMs endMs with
          | none =>
            rw [htx] at hclientSome
            cases hclientSome
          | some tx => rfl
        · dsimp only
          cases hrx : window.aggregateDirection client.attachment.key .rx startMs endMs with
          | none =>
            rw [hrx] at hclientSome
            cases htx : window.aggregateDirection client.attachment.key .tx startMs endMs with
            | none =>
              rw [htx] at hclientSome
              cases hclientSome
            | some tx =>
              rw [htx] at hclientSome
              cases hclientSome
          | some rx => rfl
      obtain ⟨hmem, hstart, hend, hdir⟩ := segment_of_aggregateDirection hedge (fun s hs => by
        split_ifs at hs
        · exact List.mem_singleton.1 hs
        · exact absurd hs List.not_mem_nil) hdirection
      refine ⟨segment, hsegment, hstart, hend, hdir, ?_⟩
      split_ifs at hmem with hfits
      · rwa [hstart, hend] at hfits
      · exact absurd hmem List.not_mem_nil
    obtain ⟨client, hclient⟩ := List.exists_mem_of_ne_nil _ hclients
    obtain ⟨-, -, -, -, -, hfits⟩ := hspans _ (mem_observations hclient).1
    refine ⟨startMs, endMs, Nat.le_of_not_lt hmin, hfits, fun o ho => ?_⟩
    obtain ⟨segment, hsegment, hstart, hend, hdir, -⟩ := hspans o ho
    exact ⟨segment, hsegment, hstart, hend, hdir⟩
  · rintro ⟨startMs, endMs, hmin, hfits, hspans⟩
    have hedges : ∀ o ∈ raw.observations, ∃ segment, window.edge o.1 = some [segment] ∧ segment.startMs = startMs ∧
        segment.endMs = endMs ∧ segment.direction = o.1.2 := by
      intro o ho
      obtain ⟨segment, hsegment, hstart, hend, hdir⟩ := hspans o ho
      obtain ⟨_, hsegment', hlt⟩ := hsegments o ho
      rw [hsegment] at hsegment'
      cases hsegment'
      refine ⟨segment, ?_, hstart, hend, hdir⟩
      rw [halone o ho, hsegment, Option.map_some, pushSegment_nil hlt, hstart, hend, if_pos hfits]
    have hwindow : window.commonWindow (edgeKeys raw) 0 none = some (startMs, some endMs) := by
      rw [commonWindow_of_same (fun key hkey => ?_) (Nat.zero_le startMs) (.inl rfl), if_neg hkeys]
      obtain ⟨o, ho, rfl⟩ := List.mem_map.1 hkey
      obtain ⟨segment, hedge, hstart, hend, -⟩ := hedges o ho
      exact ⟨segment, hedge, hstart, hend⟩
    have haggregate : (raw.clients.mapM (window.aggregateClient startMs endMs)).isSome := by
      refine isSome_mapM fun client hclient => ?_
      have hdirection : ∀ o ∈ raw.observations, (window.aggregateDirection o.1.1 o.1.2 startMs endMs).isSome := by
        intro o ho
        obtain ⟨segment, hedge, rfl, rfl, hdir⟩ := hedges o ho
        exact aggregateDirection_of_alone hedge hdir
      obtain ⟨tx, htx⟩ := Option.isSome_iff_exists.1 (hdirection _ (mem_observations hclient).1)
      obtain ⟨rx, hrx⟩ := Option.isSome_iff_exists.1 (hdirection _ (mem_observations hclient).2)
      unfold aggregateClient
      dsimp only at htx hrx
      rw [htx, hrx]
      rfl
    obtain ⟨clients, hclients⟩ := Option.isSome_iff_exists.1 haggregate
    unfold publish commonEdgeWindow aggregateEdge
    rw [hwindow]
    show (if endMs - startMs < minPublishWindowMs then none else _).isSome = true
    rw [if_neg (Nat.not_lt.2 hmin), hclients]
    rfl

/-! ### Observing twice -/

section

variable (window raw) (counters : InterfaceCounterMap) (interfaceSampleMs windowMs highWatermarkBps : ℕ)

/-- Observing a snapshot again makes no difference to the histories and to what is published. -/
structure SameAgain : Prop where
  edge : ((window.observe raw counters interfaceSampleMs windowMs highWatermarkBps).1.observe raw counters
      interfaceSampleMs windowMs highWatermarkBps).1.edge =
    (window.observe raw counters interfaceSampleMs windowMs highWatermarkBps).1.edge
  publishedWindow : ((window.observe raw counters interfaceSampleMs windowMs highWatermarkBps).1.observe raw counters
      interfaceSampleMs windowMs highWatermarkBps).1.publishedWindow =
    (window.observe raw counters interfaceSampleMs windowMs highWatermarkBps).1.publishedWindow
  snapshot : ((window.observe raw counters interfaceSampleMs windowMs highWatermarkBps).1.observe raw counters
      interfaceSampleMs windowMs highWatermarkBps).2 =
    (window.observe raw counters interfaceSampleMs windowMs highWatermarkBps).2

/-- No segment of the snapshot joins its history. -/
def NoneJoins : Prop :=
  ∀ o ∈ raw.observations, ∀ segment, o.2.segment = some segment →
    ¬ Joins (window.configure windowMs highWatermarkBps).windowMs
      (((window.configure windowMs highWatermarkBps).edge o.1).getD []) segment

/-- The total rate is at least the watermark; or it is below, the one before was not, and the segments do not span one
window; or there is no total rate or it stays below, and no segment joins its history. -/
def RepeatsSame : Prop :=
  (∃ total, raw.completeRawRate = some total ∧ (window.configure windowMs highWatermarkBps).highWatermarkBps ≤ total) ∨
  (∃ total, raw.completeRawRate = some total ∧ total < (window.configure windowMs highWatermarkBps).highWatermarkBps ∧
    (window.configure windowMs highWatermarkBps).highRate = true ∧
    ¬ OneWindow (window.configure windowMs highWatermarkBps).windowMs raw) ∨
  (raw.completeRawRate = none ∨ ∃ total, raw.completeRawRate = some total ∧
    total < (window.configure windowMs highWatermarkBps).highWatermarkBps ∧
    (window.configure windowMs highWatermarkBps).highRate = false) ∧ NoneJoins window raw windowMs highWatermarkBps

end

variable {counters : InterfaceCounterMap} {highWatermarkBps total : ℕ}

theorem configure_fields (window : NssLowRateWindow) (windowMs highWatermarkBps : ℕ) :
    (window.configure windowMs highWatermarkBps).windowMs = max windowMs minPublishWindowMs ∧
      (window.configure windowMs highWatermarkBps).highWatermarkBps = max highWatermarkBps 1 := by
  unfold configure
  dsimp only
  split_ifs with h
  · exact h
  · exact ⟨rfl, rfl⟩

/-- A window that has the thresholds keeps what it has. -/
theorem configure_again {window' : NssLowRateWindow}
    (hwindowMs : window'.windowMs = (window.configure windowMs highWatermarkBps).windowMs)
    (hhigh : window'.highWatermarkBps = (window.configure windowMs highWatermarkBps).highWatermarkBps) :
    window'.configure windowMs highWatermarkBps = window' := by
  obtain ⟨h1, h2⟩ := configure_fields window windowMs highWatermarkBps
  exact if_pos ⟨hwindowMs.trans h1, hhigh.trans h2⟩

/-- The histories when the old ones are forgotten. -/
def freshEdge (window : NssLowRateWindow) (raw : AccessEdgeSnapshot) : EdgeKey → Option (List CounterSegment) :=
  ({ window with edge := fun _ => none }.observeEdge raw).edge

/-- What `observe` leaves. -/
structure Leaves (window : NssLowRateWindow) (r : NssLowRateWindow × AccessEdgeSnapshot)
    (edge : EdgeKey → Option (List CounterSegment)) (highRate : Bool)
    (published : Option (ℕ × ℕ) × AccessEdgeSnapshot) : Prop where
  windowMs : r.1.windowMs = window.windowMs
  highWatermarkBps : r.1.highWatermarkBps = window.highWatermarkBps
  edge : r.1.edge = edge
  highRate : r.1.highRate = highRate
  published : (r.1.publishedWindow, r.2) = published

section

variable (hconfigured : window.configure windowMs highWatermarkBps = window)
include hconfigured

theorem observe_incomplete (h : raw.completeRawRate = none) :
    Leaves window (window.observe raw counters interfaceSampleMs windowMs highWatermarkBps) (window.observeEdge raw).edge
      false (none, raw) := by
  unfold observe
  rw [hconfigured, h]
  exact ⟨rfl, rfl, rfl, rfl, rfl⟩

theorem observe_high (h : raw.completeRawRate = some total) (hhigh : window.highWatermarkBps ≤ total) :
    Leaves window (window.observe raw counters interfaceSampleMs windowMs highWatermarkBps) (freshEdge window raw)
      true (none, raw) := by
  unfold observe
  rw [hconfigured, h]
  dsimp only
  have hbranch : ((window.observeInterfaces counters interfaceSampleMs).observeEdge raw).highWatermarkBps ≤ total := hhigh
  rw [if_pos hbranch]
  exact ⟨rfl, rfl, rfl, rfl, rfl⟩

theorem observe_falling (h : raw.completeRawRate = some total) (hlow : total < window.highWatermarkBps)
    (hhighRate : window.highRate = true) :
    Leaves window (window.observe raw counters interfaceSampleMs windowMs highWatermarkBps) (freshEdge window raw)
      false (none, raw) := by
  unfold observe
  rw [hconfigured, h]
  dsimp only
  have hbranch : ¬ ((window.observeInterfaces counters interfaceSampleMs).observeEdge raw).highWatermarkBps ≤ total :=
    Nat.not_le.2 hlow
  have hrate : ((window.observeInterfaces counters interfaceSampleMs).observeEdge raw).highRate = true := hhighRate
  rw [if_neg hbranch, if_pos hrate]
  exact ⟨rfl, rfl, rfl, rfl, rfl⟩

theorem observe_low (h : raw.completeRawRate = some total) (hlow : total < window.highWatermarkBps)
    (hhighRate : window.highRate = false) :
    Leaves window (window.observe raw counters interfaceSampleMs windowMs highWatermarkBps) (window.observeEdge raw).edge
      false ((((window.observeEdge raw).publish raw interfaceSampleMs).map fun r => (r.1.publishedWindow, r.2)).getD
        (none, raw)) := by
  have hbase : ∃ base : NssLowRateWindow, base.edge = (window.observeEdge raw).edge ∧ base.windowMs = window.windowMs ∧
      base.highWatermarkBps = window.highWatermarkBps ∧ base.highRate = false ∧ base.publishedWindow = none ∧
      window.observe raw counters interfaceSampleMs windowMs highWatermarkBps =
        (base.publish raw interfaceSampleMs).getD (base, raw) := by
    unfold observe
    rw [hconfigured, h]
    dsimp only
    have hbranch : ¬ ((window.observeInterfaces counters interfaceSampleMs).observeEdge raw).highWatermarkBps ≤ total :=
      Nat.not_le.2 hlow
    have hrate : ¬ ((window.observeInterfaces counters interfaceSampleMs).observeEdge raw).highRate = true := by
      show ¬ window.highRate = true
      rw [hhighRate]
      exact Bool.false_ne_true
    rw [if_neg hbranch, if_neg hrate]
    exact ⟨{ (window.observeInterfaces counters interfaceSampleMs).observeEdge raw with
      observeRates := fun _ => none, publishedWindow := none }, rfl, rfl, rfl, hhighRate, rfl, rfl⟩
  obtain ⟨base, hedge, hwindowMs, hwatermark, hrate, hpublished, heq⟩ := hbase
  rw [heq, @publish_congr (window.observeEdge raw) raw base interfaceSampleMs interfaceSampleMs hedge.symm]
  cases hpublish : base.publish raw interfaceSampleMs with
  | none => exact ⟨hwindowMs, hwatermark, hedge, hrate, congrArg (·, raw) hpublished⟩
  | some r =>
    obtain ⟨h1, h2, h3, h4, -⟩ := publish_edge hpublish
    exact ⟨h2.trans hwindowMs, h3.trans hwatermark, h1.trans hedge, h4.trans hrate, rfl⟩

end

theorem freshEdge_congr (h : window'.windowMs = window.windowMs) : freshEdge window' raw = freshEdge window raw := by
  unfold freshEdge observeEdge
  dsimp only
  rw [h]

theorem not_joins_nil (windowMs : ℕ) (segment : CounterSegment) : ¬ Joins windowMs [] segment :=
  fun ⟨_, hold, _⟩ => absurd hold List.not_mem_nil

/-- With a total rate there is a client, and there are all segments. -/
theorem complete_of_rawRate {clients : List EdgeClientObservation} {start : ℕ}
    (h : AccessEdgeSnapshot.rawRate clients start = some total) :
    ∀ client ∈ clients, client.tx.segment ≠ none ∧ client.rx.segment ≠ none := by
  induction clients generalizing start with
  | nil => exact fun client hclient => absurd hclient List.not_mem_nil
  | cons client clients ih =>
    unfold AccessEdgeSnapshot.rawRate at h
    split_ifs at h
    obtain ⟨tx, htx, h⟩ := Option.bind_eq_some_iff.1 h
    obtain ⟨_, -, h⟩ := Option.bind_eq_some_iff.1 h
    obtain ⟨rx, hrx, h⟩ := Option.bind_eq_some_iff.1 h
    obtain ⟨_, -, h⟩ := Option.bind_eq_some_iff.1 h
    intro other hother
    rcases List.mem_cons.1 hother with rfl | hother
    · rw [htx, hrx]
      exact ⟨Option.some_ne_none _, Option.some_ne_none _⟩
    · exact ih h other hother

theorem complete_of_completeRawRate (h : raw.completeRawRate = some total) :
    raw.clients ≠ [] ∧ ∀ o ∈ raw.observations, o.2.segment ≠ none := by
  obtain ⟨sum, hsum, h⟩ := Option.bind_eq_some_iff.1 h
  split_ifs at h with hclients
  refine ⟨hclients, fun o ho => ?_⟩
  obtain ⟨client, hclient, ho⟩ := client_of_observation ho
  obtain ⟨htx, hrx⟩ := complete_of_rawRate hsum client hclient
  rcases ho with rfl | rfl
  · exact htx
  · exact hrx

/-- The second observation starts from the state of the first. -/
theorem sameAgain_iff (hconfigured : window'.configure windowMs highWatermarkBps = window')
    (hconfigure : window.configure windowMs highWatermarkBps = window') {r r' : NssLowRateWindow × AccessEdgeSnapshot}
    (hr : window'.observe raw counters interfaceSampleMs windowMs highWatermarkBps = r)
    (hr' : r.1.observe raw counters interfaceSampleMs windowMs highWatermarkBps = r') :
    SameAgain window raw counters interfaceSampleMs windowMs highWatermarkBps ↔
      r'.1.edge = r.1.edge ∧ (r'.1.publishedWindow, r'.2) = (r.1.publishedWindow, r.2) := by
  have hstart : window.observe raw counters interfaceSampleMs windowMs highWatermarkBps = r := by
    rw [← hr]
    unfold observe
    rw [hconfigure, hconfigured]
  constructor
  · rintro ⟨h1, h2, h3⟩
    rw [hstart, hr'] at h1 h2 h3
    exact ⟨h1, Prod.ext h2 h3⟩
  · rintro ⟨h1, h23⟩
    obtain ⟨h2, h3⟩ := Prod.mk.inj h23
    refine ⟨?_, ?_, ?_⟩
    · rwa [hstart, hr']
    · rwa [hstart, hr']
    · rwa [hstart, hr']

theorem alone_of_freshEdge (hkeys : (raw.clients.map fun client => client.attachment.key).Nodup)
    (hedge : window'.edge = freshEdge window raw)
    (hwindowMs : window'.windowMs = window.windowMs) :
    Alone window' raw := by
  intro o ho
  rw [hedge, hwindowMs]
  exact @observeEdge_edge { window with edge := fun _ => none } raw o.1 o.2 hkeys ho

section

variable (hkeys : (raw.clients.map fun client => client.attachment.key).Nodup)
  (hsegments : ∀ o ∈ raw.observations, ∀ segment, o.2.segment = some segment → segment.startMs < segment.endMs)
include hkeys hsegments

/-- Segments that stand alone are not joined by themselves. -/
theorem freshEdge_again (hedge : window'.edge = freshEdge window raw) (hwindowMs : window'.windowMs = window.windowMs) :
    (window'.observeEdge raw).edge = window'.edge := by
  refine (@observeEdge_again_iff { window with edge := fun _ => none } raw hkeys hsegments window' hedge hwindowMs).2
    fun o _ segment _ => ?_
  exact not_joins_nil window.windowMs segment

/-- Exactly when a snapshot can be observed again without a difference. -/
theorem observe_again_iff_configured (hconfigured : window.configure windowMs highWatermarkBps = window)
    {r r' : NssLowRateWindow × AccessEdgeSnapshot}
    (hr : window.observe raw counters interfaceSampleMs windowMs highWatermarkBps = r)
    (hr' : r.1.observe raw counters interfaceSampleMs windowMs highWatermarkBps = r') :
    r'.1.edge = r.1.edge ∧ (r'.1.publishedWindow, r'.2) = (r.1.publishedWindow, r.2) ↔
      RepeatsSame window raw windowMs highWatermarkBps := by
  have hagain : ∀ {edge highRate published}, Leaves window r edge highRate published →
      r.1.configure windowMs highWatermarkBps = r.1 := fun h =>
    @configure_again windowMs window highWatermarkBps r.1 (h.windowMs.trans (by rw [hconfigured]))
      (h.highWatermarkBps.trans (by rw [hconfigured]))
  unfold RepeatsSame NoneJoins
  rw [hconfigured]
  cases hrate : raw.completeRawRate with
  | none =>
    have h := hr ▸ @observe_incomplete windowMs window raw interfaceSampleMs counters highWatermarkBps hconfigured hrate
    have h' := hr' ▸ @observe_incomplete windowMs r.1 raw interfaceSampleMs counters highWatermarkBps (hagain h) hrate
    rw [h.published, h'.published, h'.edge, observeEdge_again_iff hkeys hsegments h.edge h.windowMs]
    constructor
    · rintro ⟨hnone, -⟩
      exact .inr (.inr ⟨.inl rfl, hnone⟩)
    · rintro (⟨_, hsome, -⟩ | ⟨_, hsome, -⟩ | ⟨-, hnone⟩)
      · cases hsome
      · cases hsome
      · exact ⟨hnone, rfl⟩
  | some total =>
    by_cases hhigh : window.highWatermarkBps ≤ total
    · have h := hr ▸ @observe_high windowMs window raw interfaceSampleMs counters highWatermarkBps total hconfigured hrate hhigh
      have h' := hr' ▸ @observe_high windowMs r.1 raw interfaceSampleMs counters highWatermarkBps total (hagain h) hrate
        (h.highWatermarkBps.trans_le hhigh)
      rw [h.published, h'.published, h'.edge, h.edge, freshEdge_congr h.windowMs]
      exact iff_of_true ⟨rfl, rfl⟩ (.inl ⟨total, rfl, hhigh⟩)
    · have hlow := Nat.lt_of_not_le hhigh
      cases hbefore : window.highRate with
      | true =>
        have h := hr ▸ @observe_falling windowMs window raw interfaceSampleMs counters highWatermarkBps total hconfigured hrate
          hlow hbefore
        have h' := hr' ▸ @observe_low windowMs r.1 raw interfaceSampleMs counters highWatermarkBps total (hagain h) hrate
          (hlow.trans_eq h.highWatermarkBps.symm) h.highRate
        have hedge := freshEdge_again hkeys hsegments h.edge h.windowMs
        obtain ⟨hclients, hcomplete⟩ := complete_of_completeRawRate hrate
        have halone : Alone (r.1.observeEdge raw) raw :=
          alone_of_freshEdge hkeys (hedge.trans h.edge) h.windowMs
        have hpublish := @publish_isSome_iff (r.1.observeEdge raw) raw interfaceSampleMs halone hclients fun o ho => by
          obtain ⟨segment, hsegment⟩ := Option.ne_none_iff_exists'.1 (hcomplete o ho)
          exact ⟨segment, hsegment, hsegments o ho segment hsegment⟩
        have hwindowMs : (r.1.observeEdge raw).windowMs = window.windowMs := h.windowMs
        rw [hwindowMs] at hpublish
        rw [h.published, h'.published, h'.edge, hedge]
        constructor
        · rintro ⟨-, hnone⟩
          refine .inr (.inl ⟨total, rfl, hlow, rfl, fun hone => ?_⟩)
          obtain ⟨p, hp⟩ := Option.isSome_iff_exists.1 (hpublish.2 hone)
          rw [hp] at hnone
          exact (publish_edge hp).2.2.2.2 (congrArg Prod.fst hnone)
        · rintro (⟨_, hsome, hle⟩ | ⟨_, -, -, -, hone⟩ | ⟨hsome | ⟨_, -, -, hfalse⟩, -⟩)
          · cases hsome
            omega
          · rw [Option.not_isSome_iff_eq_none.1 (mt hpublish.1 hone)]
            exact ⟨rfl, rfl⟩
          · cases hsome
          · cases hfalse
      | false =>
        have h := hr ▸ @observe_low windowMs window raw interfaceSampleMs counters highWatermarkBps total hconfigured hrate
          hlow hbefore
        have h' := hr' ▸ @observe_low windowMs r.1 raw interfaceSampleMs counters highWatermarkBps total (hagain h) hrate
          (hlow.trans_eq h.highWatermarkBps.symm) h.highRate
        rw [h.published, h'.published, h'.edge, ← observeEdge_again_iff hkeys hsegments h.edge h.windowMs]
        constructor
        · rintro ⟨hedge, -⟩
          exact .inr (.inr ⟨.inr ⟨total, rfl, hlow, rfl⟩, hedge⟩)
        · rintro (⟨_, hsome, hle⟩ | ⟨_, -, -, htrue, -⟩ | ⟨-, hedge⟩)
          · cases hsome
            omega
          · cases htrue
          · refine ⟨hedge, ?_⟩
            rw [@publish_congr (r.1.observeEdge raw) raw (window.observeEdge raw) interfaceSampleMs interfaceSampleMs
              (hedge.trans h.edge)]

end

end NssLowRateWindow

/-- The attachments of a snapshot are those of the topology, which has one for each key. -/
theorem AccessEdgeRuntime.updateRates_keys (runtime : AccessEdgeRuntime) (counters : String → Option LinkCounters)
    (readBeginMs readEndMs sampleMs : ℕ) :
    ((runtime.updateRates counters readBeginMs readEndMs sampleMs).clients.map
      fun client => client.attachment.key).Nodup := by
  have hfold : ∀ (attachments : List Attachment) (step : AccessEdgeRuntime → Attachment →
        AccessEdgeRuntime × EdgeDirectionObservation × EdgeDirectionObservation) (start : AccessEdgeRuntime)
        (clients : List EdgeClientObservation),
      (attachments.foldl (fun (r : AccessEdgeRuntime × List EdgeClientObservation) attachment =>
          ((step r.1 attachment).1, r.2 ++ [⟨attachment, (step r.1 attachment).2.1, (step r.1 attachment).2.2⟩]))
        (start, clients)).2.map (fun client => client.attachment) = clients.map (fun client => client.attachment) ++
          attachments := by
    intro attachments step
    induction attachments with
    | nil => exact fun start clients => (List.append_nil _).symm
    | cons attachment attachments ih =>
      intro start clients
      rw [List.foldl_cons, ih, List.map_append, List.append_assoc]
      rfl
  have hclients := hfold runtime.topology.active (fun runtime' attachment => runtime'.updateClient
    (if runtime.wifiFresh then runtime.latestWifi else none) counters (readBeginMs, readEndMs, sampleMs) attachment)
    { runtime with epochId := saturatingAdd runtime.epochId 1 } []
  have hkeys : ((runtime.updateRates counters readBeginMs readEndMs sampleMs).clients.map
      fun client => client.attachment.key) = runtime.topology.active.map fun attachment => attachment.key := by
    have hmap := congrArg (List.map fun attachment : Attachment => attachment.key) hclients
    rw [List.map_map, List.map_nil, List.nil_append] at hmap
    exact hmap
  rw [hkeys]
  exact runtime.topology.sorted.imp ne_of_lt

namespace NssLowRateWindow

/-- Exactly when a snapshot can be observed again without a difference. -/
theorem observe_again_iff (window : NssLowRateWindow) {raw : AccessEdgeSnapshot} (counters : InterfaceCounterMap)
    (interfaceSampleMs windowMs highWatermarkBps : ℕ)
    (hkeys : (raw.clients.map fun client => client.attachment.key).Nodup)
    (hsegments : ∀ o ∈ raw.observations, ∀ segment, o.2.segment = some segment → segment.startMs < segment.endMs) :
    SameAgain window raw counters interfaceSampleMs windowMs highWatermarkBps ↔
      RepeatsSame window raw windowMs highWatermarkBps := by
  have hconfigured : (window.configure windowMs highWatermarkBps).configure windowMs highWatermarkBps =
      window.configure windowMs highWatermarkBps := configure_again rfl rfl
  have hrepeats : RepeatsSame window raw windowMs highWatermarkBps ↔
      RepeatsSame (window.configure windowMs highWatermarkBps) raw windowMs highWatermarkBps := by
    unfold RepeatsSame NoneJoins
    rw [hconfigured]
  rw [hrepeats, sameAgain_iff hconfigured rfl rfl rfl]
  exact observe_again_iff_configured hkeys hsegments hconfigured rfl rfl

/-! ### A rolling window that is lost -/

def exampleSegment (direction : Direction) (startMs endMs : ℕ) : CounterSegment :=
  ⟨1, startMs, endMs, endMs - 3, endMs, .edgeWifi, direction, 1000, 10, 1, .stationData, 3⟩

def exampleObservation (direction : Direction) (startMs endMs : ℕ) : EdgeDirectionObservation :=
  ⟨some (exampleSegment direction startMs endMs), .full, .unicast, none, []⟩

def exampleMac : Vector UInt8 6 := Vector.ofFn fun i => if i = 0 then 2 else if i = 5 then 1 else 0

/-- One client with a segment for each direction. -/
def exampleSnapshot (startMs endMs : ℕ) : AccessEdgeSnapshot where
  sampleMs := endMs
  clients := [⟨⟨⟨exampleMac, some 7, none⟩, ⟨.wifi, 10, "phy0-ap0", some 7, none⟩, .associatedStation, 1, 1, 2,
    false⟩, exampleObservation .tx startMs endMs, exampleObservation .rx startMs endMs⟩]
  topologyComplete := true
  fdbSource := none
  reasonCodes := []

/-- The window after two snapshots in a row. -/
def exampleWindow : NssLowRateWindow :=
  ((default.observe (exampleSnapshot 0 1000) (fun _ => none) 1000 10000 8000000).1.observe (exampleSnapshot 1000 2000)
    (fun _ => none) 2000 10000 8000000).1

theorem exampleWindow_history : ∀ o ∈ (exampleSnapshot 3000 4000).observations,
    (((exampleWindow.configure 10000 8000000).edge o.1).getD []).map (fun segment => (segment.startMs, segment.endMs)) =
      [(0, 1000), (1000, 2000)] ∧
    ∀ segment ∈ o.2.segment, kept (((exampleWindow.configure 10000 8000000).edge o.1).getD []) segment = [] := by
  decide +kernel

/-- A segment behind a gap starts a new history, and makes no difference when it comes again. -/
theorem exampleSnapshot_again :
    SameAgain exampleWindow (exampleSnapshot 3000 4000) (fun _ => none) 4000 10000 8000000 := by
  have hkeys : ((exampleSnapshot 3000 4000).clients.map fun client => client.attachment.key).Nodup := by decide
  have hsegments : ∀ o ∈ (exampleSnapshot 3000 4000).observations, ∀ segment, o.2.segment = some segment →
      segment.startMs < segment.endMs := by
    decide
  refine (observe_again_iff exampleWindow (fun _ => none) 4000 10000 8000000 hkeys hsegments).2
    (.inr (.inr ⟨.inr ⟨((exampleSnapshot 3000 4000).completeRawRate).getD 0, by decide +kernel⟩, ?_⟩))
  rintro o ho segment hsegment ⟨old, hold, -⟩
  rw [(exampleWindow_history o ho).2 segment hsegment] at hold
  cases hold

/-- After two snapshots in a row, the second one comes again. -/
theorem rollingWindow_lost : ¬ SameAgain (default.observe (exampleSnapshot 0 1000) (fun _ => none) 1000 10000 8000000).1
    (exampleSnapshot 1000 2000) (fun _ => none) 2000 10000 8000000 := by
  intro h
  have hedge := congrFun h.edge (⟨exampleMac, some 7, none⟩, .tx)
  exact absurd hedge (by decide +kernel)

end NssLowRateWindow

end Lanspeedd
