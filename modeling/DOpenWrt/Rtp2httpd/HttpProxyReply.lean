import DOpenWrt.Lib.Run
import DOpenWrt.Rtp2httpd.HttpChunkedGrammar
import DOpenWrt.Rtp2httpd.HttpProxyResponse

/-!
# What the client of the proxy gets

`Reply` says it of the bytes received so far, whatever the reads were that brought them: nothing before the head is
there, then the head and all of the body, or, for a playlist, nothing before its text is complete and then the
rewritten one.
-/

namespace Rtp2httpd

namespace HttpProxy

open PrefixParser

/-! ### The decoder with a limited sink -/

/-- The sink without the limit of `http_proxy_append_rewrite_body`. -/
def collect (sink run : List UInt8) : List UInt8 × Bool := (sink ++ run, true)

theorem collect_ok (sink run : List UInt8) : (collect sink run).2 = true := rfl

theorem feedLoop_collect (d : HttpChunkedDecoder) (sink input : List UInt8) :
    (feedLoop collect d sink input).sink = sink ++ (feedLoop collect d sink input).emitted.flatten := by
  induction d, sink, input using feedLoop.induct collect with
  | case1 d sink => simp [feedLoop_nil]
  | case2 d sink ch rest d' h => simp [feedLoop_fail _ _ h]
  | case3 d sink ch rest d' h ih =>
    rw [feedLoop_next _ _ h]
    exact ih
  | case4 d sink ch rest d' h hrest => simp [feedLoop_finish _ _ h, hrest]
  | case5 d sink ch rest d' h hrest => simp [feedLoop_finish _ _ h, hrest]
  | case6 d sink ch rest d' h ih =>
    rw [feedLoop_emit_zero _ _ h]
    exact ih
  | case7 d sink ch rest n d' h hn run s' hfail => cases hfail
  | case8 d sink ch rest n d' h hn run s' hok ih =>
    have hs' : (collect sink run).1 = s' := congrArg Prod.fst hok
    rw [feedLoop_emit _ _ h hn (collect_ok _ _), hs']
    simp only [Feed.after, List.flatten_append, List.flatten_singleton]
    rw [ih, ← hs', collect, List.append_assoc]

theorem feed_collect (d : HttpChunkedDecoder) (sink input : List UInt8) :
    (httpChunkedDecoderFeed collect d sink input).sink =
      sink ++ (httpChunkedDecoderFeed collect d sink input).emitted.flatten := by
  unfold httpChunkedDecoderFeed
  split
  · simp
  · split <;> simp
  · exact feedLoop_collect d sink input

/-- A call with the limit, beside the same call without it. -/
inductive Bounded (input : List UInt8) (f g : Feed (List UInt8)) : Prop
  | fails (hf : f.result = .error) (hg : g.result = .error ∨ rewriteMaxBodySize < g.sink.length)
  | same (hne : f.result ≠ .error) (hresult : f.result = g.result) (hdecoder : f.decoder = g.decoder)
    (hsink : f.sink = g.sink) (hconsumed : f.consumed = input.length) (hlen : g.sink.length ≤ rewriteMaxBodySize)

variable {d : HttpChunkedDecoder} {sink input rest : List UInt8} {f g : Feed (List UInt8)}

theorem Bounded.after (h : Bounded rest f g) {n : Nat} (hn : input.length = n + rest.length)
    (runs : List (List UInt8)) : Bounded input (f.after n runs) (g.after n runs) := by
  cases h with
  | fails hf hg => exact .fails hf hg
  | same hne hresult hdecoder hsink hconsumed hlen =>
    exact .same hne hresult hdecoder hsink (by rw [Feed.after, hn, ← hconsumed]) hlen

theorem feedLoop_bounded (d : HttpChunkedDecoder) (sink input : List UInt8) (hsink : sink.length ≤ rewriteMaxBodySize) :
    Bounded input (feedLoop appendRewriteBody d sink input) (feedLoop collect d sink input) := by
  induction d, sink, input using feedLoop.induct appendRewriteBody with
  | case1 d sink =>
    rw [feedLoop_nil, feedLoop_nil]
    refine .same ?_ rfl rfl rfl rfl hsink
    dsimp only
    split <;> simp
  | case2 d sink ch rest d' h =>
    rw [feedLoop_fail _ _ h, feedLoop_fail _ _ h]
    exact .fails rfl (.inl rfl)
  | case3 d sink ch rest d' h ih =>
    rw [feedLoop_next _ _ h, feedLoop_next _ _ h]
    exact (ih hsink).after (by rw [List.length_cons, Nat.add_comm]) _
  | case4 d sink ch rest d' h hrest =>
    rw [feedLoop_finish _ _ h, feedLoop_finish _ _ h, if_pos hrest]
    exact .fails rfl (.inl rfl)
  | case5 d sink ch rest d' h hrest =>
    rw [feedLoop_finish _ _ h, feedLoop_finish _ _ h, if_neg hrest]
    obtain rfl := not_not.1 hrest
    exact .same (by simp) rfl rfl rfl rfl hsink
  | case6 d sink ch rest d' h ih =>
    rw [feedLoop_emit_zero _ _ h, feedLoop_emit_zero _ _ h]
    exact ih hsink
  | case7 d sink ch rest n d' h hn run s' hfail =>
    have hrun : appendRewriteBody sink ((ch :: rest).take n) = (s', false) := hfail
    refine .fails ?_ (.inr ?_)
    · rw [feedLoop]
      split <;> simp_all
    · -- the run alone is too long
      rw [feedLoop_emit _ _ h hn (collect_ok _ _)]
      have hlong : rewriteMaxBodySize - sink.length < ((ch :: rest).take n).length := by
        by_contra hle
        rw [appendRewriteBody, if_neg hle] at hrun
        cases hrun
      simp only [Feed.after, feedLoop_collect, collect, List.length_append]
      omega
  | case8 d sink ch rest n d' h hn run s' hok ih =>
    have hrun : appendRewriteBody sink ((ch :: rest).take n) = (s', true) := hok
    have hfits : ¬ rewriteMaxBodySize - sink.length < ((ch :: rest).take n).length := by
      intro hlt
      rw [appendRewriteBody, if_pos hlt] at hrun
      cases hrun
    have hs' : sink ++ (ch :: rest).take n = s' := by
      rw [appendRewriteBody, if_neg hfits] at hrun
      exact congrArg Prod.fst hrun
    rw [feedLoop_emit _ _ h hn (by rw [hrun]), feedLoop_emit _ _ h hn (collect_ok _ _), hrun, collect, hs']
    have hle : n ≤ (ch :: rest).length := by
      obtain ⟨-, rfl, -⟩ := switchState_emit h
      exact Nat.min_le_right _ _
    refine (ih ?_).after (by rw [List.length_drop]; omega) _
    rw [← hs', List.length_append]
    omega

theorem feed_bounded (d : HttpChunkedDecoder) (sink input : List UInt8) (hsink : sink.length ≤ rewriteMaxBodySize) :
    Bounded input (httpChunkedDecoderFeed appendRewriteBody d sink input)
    (httpChunkedDecoderFeed collect d sink input) := by
  unfold httpChunkedDecoderFeed
  split
  · exact .fails rfl (.inl rfl)
  · split
    · next hnil => exact .same (by simp) rfl rfl rfl hnil.symm hsink
    · exact .fails rfl (.inl rfl)
  · exact feedLoop_bounded d sink input hsink

theorem feed_collect_nil : httpChunkedDecoderFeed collect httpChunkedDecoderInit [] [] =
    ⟨httpChunkedDecoderInit, [], [], 0, .needMore⟩ := by
  rw [httpChunkedDecoderFeed_eq_feedLoop collect (by decide), feedLoop_nil]
  rfl

theorem chunked_iff_collect {body text : List UInt8} :
    (∃ chunks, Chunked body chunks ∧ text = chunks.flatten) ↔
      (httpChunkedDecoderFeed collect httpChunkedDecoderInit [] body).result = .done ∧
        (httpChunkedDecoderFeed collect httpChunkedDecoderInit [] body).sink = text := by
  rw [feed_collect, List.nil_append, httpChunkedDecoderFeed_eq_feedLoop collect (by decide)]
  have haccepts : Accepts collect httpChunkedDecoderInit [] body text ↔
      ∃ chunks, Chunked body chunks ∧ text = chunks.flatten := accepts_chunked collect_ok ⟨rfl, rfl, rfl, rfl, rfl⟩
  exact haccepts.symm

/-! ### The reply -/

/-- The text that a body gives which is rewritten, if it is complete. -/
structure BodyText (fields : ResponseFields) (ended : Bool) (body text : List UInt8) : Prop where
  length_le : text.length ≤ rewriteMaxBodySize
  framing : if fields.responseIsChunked then ∃ chunks, Chunked body chunks ∧ text = chunks.flatten
    else text = body ∧ (ended ∨ 0 ≤ fields.contentLength ∧ fields.contentLength ≤ body.length)

/-- The head is there, and this is what follows from it. -/
structure HeadRead (settings : Settings) (received : List UInt8) (response : PhrResponse) (body : List UInt8)
    (plan : HeadPlan) : Prop where
  parse : phrParseResponse.parse received = .done response body
  plan : planHead settings (headOf received body) response = .ok plan

/-- What the client is to get when `received` has been received. -/
inductive Reply (allocates : Nat → Bool) (settings : Settings) (received : List UInt8) (ended : Bool) :
    List UInt8 → Prop
  | noHead (h : ∀ response body, phrParseResponse.parse received ≠ .done response body) :
    Reply allocates settings received ended []
  | refused {response : PhrResponse} {body : List UInt8} {e : ProxyError}
      (parse : phrParseResponse.parse received = .done response body)
      (plan : planHead settings (headOf received body) response = .error e) : Reply allocates settings received ended []
  | direct {response : PhrResponse} {body : List UInt8} {plan : HeadPlan}
      (head : HeadRead settings received response body plan) (hdirect : plan.needsBodyRewrite = false) :
    Reply allocates settings received ended (plan.outputs.flatten ++ if settings.isHead then [] else body)
  | rewritten {response : PhrResponse} {body text : List UInt8} {plan : HeadPlan} {outputs : List (List UInt8)}
      (head : HeadRead settings received response body plan) (hrewrite : plan.needsBodyRewrite = true)
      (text_eq : BodyText (readFields response) ended body text)
      (outputs_eq : rewrittenReply allocates settings (headOf received body) text = .ok outputs) :
    Reply allocates settings received ended outputs.flatten
  | withheld {response : PhrResponse} {body : List UInt8} {plan : HeadPlan}
      (head : HeadRead settings received response body plan) (hrewrite : plan.needsBodyRewrite = true)
      (none : ∀ text outputs, BodyText (readFields response) ended body text →
        rewrittenReply allocates settings (headOf received body) text ≠ .ok outputs) :
    Reply allocates settings received ended []

/-- The response is at its end. Where it is handed on as it comes, an empty body is never complete by its length. -/
inductive Finished (settings : Settings) (received : List UInt8) (ended : Bool) : Prop
  | noHead (parse : phrParseResponse.parse received = .short) (hended : ended = true)
  | direct {response : PhrResponse} {body : List UInt8} {plan : HeadPlan}
      (head : HeadRead settings received response body plan) (hdirect : plan.needsBodyRewrite = false)
      (finish : settings.isHead ∨ ended ∨ body ≠ [] ∧ 0 ≤ (readFields response).contentLength ∧
        (readFields response).contentLength ≤ body.length)
  | rewritten {response : PhrResponse} {body text : List UInt8} {plan : HeadPlan}
      (head : HeadRead settings received response body plan) (hrewrite : plan.needsBodyRewrite = true)
      (text_eq : BodyText (readFields response) ended body text)

/-- The client's queue takes everything. -/
def TakesAll (takes : List UInt8 → List UInt8 → Nat) : Prop := ∀ output data, data.length ≤ takes output data

variable {settings : Settings} {received body text text' : List UInt8} {response response' : PhrResponse}
  {plan plan' : HeadPlan} {fields : ResponseFields} {ended : Bool}

theorem BodyText.eq (h : BodyText fields ended body text) (h' : BodyText fields ended body text') : text = text' := by
  have hf := h.framing
  have hf' := h'.framing
  split at hf
  · next hchunked =>
    rw [if_pos hchunked] at hf'
    exact (chunked_iff_collect.1 hf).2.symm.trans (chunked_iff_collect.1 hf').2
  · next hchunked =>
    rw [if_neg hchunked] at hf'
    exact hf.1.trans hf'.1.symm

theorem HeadRead.eq {body' : List UInt8} (h : HeadRead settings received response body plan)
    (h' : HeadRead settings received response' body' plan') : response = response' ∧ body = body' ∧ plan = plan' := by
  have hparse := h.parse.symm.trans h'.parse
  injection hparse with hresponse hbody
  subst hresponse hbody
  have hplan := h.plan.symm.trans h'.plan
  injection hplan with hplan
  exact ⟨rfl, rfl, hplan⟩

theorem headOf_append (received body bytes : List UInt8) :
    headOf (received ++ bytes) (body ++ bytes) = headOf received body := by
  rw [headOf, headOf, List.length_append, List.length_append, Nat.add_sub_add_right,
    List.take_append_of_le_length (Nat.sub_le _ _)]

/-- More of the body changes nothing in the head. -/
theorem HeadRead.append (h : HeadRead settings received response body plan) (bytes : List UInt8) :
    HeadRead settings (received ++ bytes) response (body ++ bytes) plan where
  parse := parse_append_done h.parse bytes
  plan := by rw [headOf_append, h.plan]

/-! ### Outputs -/

section Outputs

variable {takes : List UInt8 → List UInt8 → Nat} {s : Session}

/-- All of `data` is taken, or the session ends with a part of it. -/
def Queued (takes : List UInt8 → List UInt8 → Nat) (s : Session) (data : List UInt8) (t : Session) : Prop :=
  t = { s with output := s.output ++ data } ∨ t.state = .error ∧ t.output <+: s.output ++ data ∧ ¬ TakesAll takes

theorem queueOutput_queued (s : Session) (data : List UInt8) : Queued takes s data (queueOutput takes s data) := by
  rcases Nat.lt_or_ge (takes s.output data) data.length with hlt | hle
  · refine .inr ⟨if_pos hlt, ?_, fun hall => absurd (hall s.output data) (Nat.not_le.2 hlt)⟩
    exact (List.prefix_append_right_inj _).2 (List.take_prefix _ _)
  · refine .inl ?_
    rw [queueOutput, if_neg (Nat.not_lt.2 hle), List.take_of_length_le hle]

theorem queueOutputs_error (h : s.state = .error) (outputs : List (List UInt8)) : queueOutputs takes s outputs = s := by
  induction outputs with
  | nil => rfl
  | cons data outputs ih => rwa [queueOutputs, List.foldl_cons, if_pos h]

theorem queueOutputs_queued (h : s.state ≠ .error) (outputs : List (List UInt8)) :
    Queued takes s outputs.flatten (queueOutputs takes s outputs) := by
  induction outputs generalizing s with
  | nil => exact .inl (by rw [List.flatten_nil, List.append_nil]; rfl)
  | cons data outputs ih =>
    rw [queueOutputs, List.foldl_cons, if_neg h, List.flatten_cons, ← queueOutputs]
    have hqueued : Queued takes s data (queueOutput takes s data) := queueOutput_queued s data
    rcases hqueued with heq | ⟨hstate, hpre, hall⟩
    · rw [heq]
      have hnext := @ih { s with output := s.output ++ data } h
      rcases hnext with hnext | ⟨hstate, hpre, hall⟩
      · exact .inl (by rw [hnext, List.append_assoc])
      · exact .inr ⟨hstate, by rwa [List.append_assoc] at hpre, hall⟩
    · rw [queueOutputs_error hstate]
      refine .inr ⟨hstate, hpre.trans ?_, hall⟩
      rw [← List.append_assoc]
      exact List.prefix_append _ _

end Outputs

/-! ### The session between two reads -/

/-- What a session has of a text that is not complete. -/
def Collected (fields : ResponseFields) (body : List UInt8) (s : Session) : Prop :=
  if fields.responseIsChunked then
    let fed := httpChunkedDecoderFeed collect httpChunkedDecoderInit [] body
    fed.result = .needMore ∧ s.chunkedDecoder = fed.decoder ∧ s.rewriteBodyBuffer = fed.sink ∧
      fed.sink.length ≤ rewriteMaxBodySize
  else s.rewriteBodyBuffer = body ∧ body.length ≤ rewriteMaxBodySize ∧
    ¬ (0 ≤ fields.contentLength ∧ fields.contentLength ≤ body.length)

/-- The session behind the head, with the body so far. -/
structure Streaming (settings : Settings) (head : List UInt8) (response : PhrResponse) (plan : HeadPlan)
    (body : List UInt8) (s : Session) : Prop where
  state : s.state = .streaming
  not_head : settings.isHead = false
  fields : s.fields = readFields response
  rewrite : s.needsBodyRewrite = plan.needsBodyRewrite
  bytes : s.bytesReceived = body.length
  direct : plan.needsBodyRewrite = false → s.output = plan.outputs.flatten ++ body ∧
    (body = [] ∨ ¬ (0 ≤ (readFields response).contentLength ∧ (readFields response).contentLength ≤ body.length))
  held : plan.needsBodyRewrite = true → s.output = [] ∧ s.savedResponseHeaders = head ∧
    Collected (readFields response) body s

variable {allocates : Nat → Bool} {takes : List UInt8 → List UInt8 → Nat} {s : Session} {head data bytes : List UInt8}

/-- The session after the response. -/
structure Settled (allocates : Nat → Bool) (settings : Settings) (takes : List UInt8 → List UInt8 → Nat) (s : Session)
    (received : List UInt8) (ended : Bool) : Prop where
  terminal : s.state = .complete ∨ s.state = .error
  reply : ∃ reply, Reply allocates settings received ended reply ∧ s.output <+: reply ∧
    (s.state = .complete ∨ TakesAll takes → s.output = reply)
  finished : s.state = .complete → Finished settings received ended

inductive Inv (allocates : Nat → Bool) (settings : Settings) (takes : List UInt8 → List UInt8 → Nat) (s : Session)
    (received : List UInt8) (ended : Bool) : Prop
  | awaiting (session : s = { Session.start with responseBuffer := received })
      (parse : phrParseResponse.parse received = .short) (hended : ended = false)
  | streaming {response : PhrResponse} {body : List UInt8} {plan : HeadPlan}
      (head : HeadRead settings received response body plan)
      (session : Streaming settings (headOf received body) response plan body s) (hended : ended = false)
  | settled (session : Settled allocates settings takes s received ended)

theorem Reply.forwarded (hread : HeadRead settings received response body plan)
    (hdirect : plan.needsBodyRewrite = false) (hhead : settings.isHead = false) :
    Reply allocates settings received ended (plan.outputs.flatten ++ body) := by
  have hreply : Reply allocates settings received ended
      (plan.outputs.flatten ++ if settings.isHead then [] else body) := .direct hread hdirect
  rwa [if_neg (by rw [hhead]; decide)] at hreply

/-- The session failed before there was an output. -/
theorem error_settled (hstate : s.state = .error) (hout : s.output = [])
    (hreply : Reply allocates settings received ended []) :
    Settled allocates settings takes s received ended where
  terminal := .inr hstate
  reply := ⟨[], hreply, hout ▸ List.nil_prefix, fun _ => hout⟩
  finished h := by rw [hstate] at h; cases h

theorem complete_settled {reply : List UInt8} (hstate : s.state = .complete) (hout : s.output = reply)
    (hreply : Reply allocates settings received ended reply) (hfinished : Finished settings received ended) :
    Settled allocates settings takes s received ended where
  terminal := .inl hstate
  reply := ⟨reply, hreply, hout ▸ List.prefix_rfl, fun _ => hout⟩
  finished _ := hfinished

/-- The client's queue did not take everything. -/
theorem untaken_settled {reply : List UInt8} (hstate : s.state = .error) (hall : ¬ TakesAll takes)
    (hpre : s.output <+: reply)
    (hreply : Reply allocates settings received ended reply) : Settled allocates settings takes s received ended where
  terminal := .inr hstate
  reply := ⟨reply, hreply, hpre, fun h => h.elim (fun h => by rw [hstate] at h; cases h) fun h => absurd h hall⟩
  finished h := by rw [hstate] at h; cases h

/-! ### The rewritten response -/

theorem finalizeRewrite_settled (hread : HeadRead settings received response body plan)
    (hrewrite : plan.needsBodyRewrite = true) (hstate : s.state = .streaming) (hout : s.output = [])
    (hsaved : s.savedResponseHeaders = headOf received body)
    (htext : BodyText (readFields response) ended body s.rewriteBodyBuffer) :
    Settled allocates settings takes (finalizeRewrite allocates settings takes s) received ended := by
  unfold finalizeRewrite
  rw [hsaved]
  cases hreply : rewrittenReply allocates settings (headOf received body) s.rewriteBodyBuffer with
  | error e =>
    refine error_settled rfl hout (.withheld hread hrewrite fun text outputs htext' houtputs => ?_)
    rw [← htext.eq htext', hreply] at houtputs
    cases houtputs
  | ok outputs =>
    have hreply := Reply.rewritten hread hrewrite htext hreply
    have hne : s.state ≠ .error := by rw [hstate]; decide
    dsimp only
    have hqueued : Queued takes s outputs.flatten (queueOutputs takes s outputs) := queueOutputs_queued hne outputs
    rcases hqueued with heq | ⟨herror, hpre, hall⟩
    · rw [heq, if_neg hne]
      exact complete_settled rfl (by rw [hout, List.nil_append]) hreply (.rewritten hread hrewrite htext)
    · rw [if_pos herror]
      exact untaken_settled herror hall (by rwa [hout, List.nil_append] at hpre) hreply

/-- The decoder goes on where it was. -/
theorem feed_collect_append (body data : List UInt8) :
    let f := httpChunkedDecoderFeed collect httpChunkedDecoderInit [] body
    let g := httpChunkedDecoderFeed collect f.decoder f.sink data
    let w := httpChunkedDecoderFeed collect httpChunkedDecoderInit [] (body ++ data)
    w.decoder = g.decoder ∧ w.result = g.result ∧ w.sink = g.sink := by
  intro f g w
  have hview := httpChunkedDecoderFeed_append collect_ok httpChunkedDecoderInit body data [] f.sink
  have hdecoder : w.decoder = g.decoder := congrArg View.decoder hview
  have hresult : w.result = g.result := congrArg View.result hview
  have hbody : w.emitted.flatten = f.emitted.flatten ++ g.emitted.flatten := congrArg View.body hview
  have hf : f.sink = [] ++ f.emitted.flatten := feed_collect ..
  have hg : g.sink = f.sink ++ g.emitted.flatten := feed_collect ..
  have hw : w.sink = [] ++ w.emitted.flatten := feed_collect ..
  refine ⟨hdecoder, hresult, ?_⟩
  rw [hw, hg, hf, hbody, List.append_assoc]

theorem BodyText.chunked (hchunked : fields.responseIsChunked) : BodyText fields ended body text ↔
    text.length ≤ rewriteMaxBodySize ∧
      (httpChunkedDecoderFeed collect httpChunkedDecoderInit [] body).result = .done ∧
        (httpChunkedDecoderFeed collect httpChunkedDecoderInit [] body).sink = text := by
  rw [← chunked_iff_collect]
  refine ⟨fun h => ⟨h.length_le, ?_⟩, fun h => ⟨h.1, ?_⟩⟩
  · have hframing := h.framing
    rwa [if_pos hchunked] at hframing
  · rw [if_pos hchunked]
    exact h.2

theorem BodyText.plain (hchunked : ¬ fields.responseIsChunked) : BodyText fields ended body text ↔
    text.length ≤ rewriteMaxBodySize ∧ text = body ∧
      (ended ∨ 0 ≤ fields.contentLength ∧ fields.contentLength ≤ body.length) := by
  refine ⟨fun h => ⟨h.length_le, ?_⟩, fun h => ⟨h.1, ?_⟩⟩
  · have hframing := h.framing
    rwa [if_neg hchunked] at hframing
  · rw [if_neg hchunked]
    exact h.2

section Held

variable (h : Streaming settings (headOf received (body ++ data)) response plan body s)
  (hread : HeadRead settings received response (body ++ data) plan) (hrewrite : plan.needsBodyRewrite = true)
include h hread hrewrite

theorem Streaming.consumeRewriteBody :
    Inv allocates settings takes (consumeRewriteBody allocates settings takes
      { s with bytesReceived := s.bytesReceived + data.length } data) received false := by
  obtain ⟨hout, hsaved, hcollected⟩ := h.held hrewrite
  have hbytes : s.bytesReceived + data.length = (body ++ data).length := by rw [h.bytes, List.length_append]
  unfold HttpProxy.consumeRewriteBody
  dsimp only
  rw [h.fields]
  by_cases hchunked : (readFields response).responseIsChunked
  · rw [if_pos hchunked]
    rw [Collected, if_pos hchunked] at hcollected
    obtain ⟨-, hdecoder, hbuffer, hlen⟩ := hcollected
    obtain ⟨hwdecoder, hwresult, hwsink⟩ := feed_collect_append body data
    rw [← hdecoder, ← hbuffer] at hwdecoder hwresult hwsink
    cases feed_bounded s.chunkedDecoder s.rewriteBodyBuffer data (by rw [hbuffer]; exact hlen) with
    | fails hf hg =>
      rw [if_pos (.inl hf)]
      refine .settled (error_settled rfl hout (.withheld hread hrewrite fun text _ htext => ?_))
      obtain ⟨hle, hdone, hsink⟩ := (BodyText.chunked hchunked).1 htext
      rw [hwresult] at hdone
      rw [hwsink] at hsink
      rcases hg with hg | hg
      · rw [hg] at hdone
        cases hdone
      · rw [hsink] at hg
        omega
    | same hne hresult hfdecoder hsink hconsumed hle =>
      rw [if_neg (by rintro (herror | hlength); exacts [hne herror, hlength hconsumed])]
      by_cases hdone :
          (httpChunkedDecoderFeed appendRewriteBody s.chunkedDecoder s.rewriteBodyBuffer data).result = .done
      · rw [if_pos hdone]
        refine .settled (finalizeRewrite_settled hread hrewrite h.state hout hsaved ?_)
        rw [BodyText.chunked hchunked, hwresult, hwsink, ← hresult]
        exact ⟨hsink ▸ hle, hdone, hsink.symm⟩
      · rw [if_neg hdone]
        refine .streaming hread ⟨h.state, h.not_head, rfl, h.rewrite, hbytes, fun hdirect => ?_,
          fun _ => ⟨hout, hsaved, ?_⟩⟩ rfl
        · rw [hrewrite] at hdirect
          cases hdirect
        · rw [Collected, if_pos hchunked]
          refine ⟨?_, hfdecoder.trans hwdecoder.symm, hsink.trans hwsink.symm, by rw [hwsink]; exact hle⟩
          rw [hwresult, ← hresult]
          cases hcase : (httpChunkedDecoderFeed appendRewriteBody s.chunkedDecoder s.rewriteBodyBuffer data).result with
          | error => exact absurd hcase hne
          | needMore => rfl
          | done => exact absurd hcase hdone
  · rw [if_neg hchunked]
    rw [Collected, if_neg hchunked] at hcollected
    obtain ⟨hbuffer, hlen, -⟩ := hcollected
    rw [hbuffer, appendRewriteBody]
    by_cases hlong : rewriteMaxBodySize - body.length < data.length
    · rw [if_pos hlong]
      dsimp only
      rw [if_pos (by decide)]
      refine .settled (error_settled rfl hout (.withheld hread hrewrite fun text _ htext => ?_))
      obtain ⟨hle, rfl, -⟩ := (BodyText.plain hchunked).1 htext
      rw [List.length_append] at hle
      omega
    · have hfits : (body ++ data).length ≤ rewriteMaxBodySize := by
        rw [List.length_append]
        omega
      rw [if_neg hlong]
      dsimp only
      rw [if_neg (by decide), hbytes]
      by_cases hend : 0 ≤ (readFields response).contentLength ∧
          (readFields response).contentLength ≤ (body ++ data).length
      · rw [if_pos hend]
        exact .settled (finalizeRewrite_settled hread hrewrite h.state hout hsaved
          ((BodyText.plain hchunked).2 ⟨hfits, rfl, .inr hend⟩))
      · rw [if_neg hend]
        refine .streaming hread ⟨h.state, h.not_head, rfl, h.rewrite, rfl, fun hdirect => ?_,
          fun _ => ⟨hout, hsaved, ?_⟩⟩ rfl
        · rw [hrewrite] at hdirect
          cases hdirect
        · rw [Collected, if_neg hchunked]
          exact ⟨rfl, hfits, hend⟩

end Held

/-! ### The steps -/

section Steps

theorem Streaming.forwardBody (h : Streaming settings (headOf received (body ++ data)) response plan body s)
    (hread : HeadRead settings received response (body ++ data) plan) (hdirect : plan.needsBodyRewrite = false)
    (hdata : data ≠ []) : Inv allocates settings takes (forwardBody takes s data) received false := by
  obtain ⟨hout, -⟩ := h.direct hdirect
  have hne : s.state ≠ .error := by rw [h.state]; decide
  have hreply : Reply allocates settings received false (plan.outputs.flatten ++ (body ++ data)) :=
    .forwarded hread hdirect h.not_head
  unfold HttpProxy.forwardBody
  dsimp only
  have hqueued : Queued takes s data (queueOutput takes s data) := queueOutput_queued s data
  rcases hqueued with heq | ⟨herror, hpre, hall⟩
  · rw [heq, if_neg hne]
    have hout' : s.output ++ data = plan.outputs.flatten ++ (body ++ data) := by rw [hout, List.append_assoc]
    have hbytes : s.bytesReceived + data.length = (body ++ data).length := by rw [h.bytes, List.length_append]
    dsimp only
    rw [h.fields, hbytes]
    by_cases hend : 0 ≤ (readFields response).contentLength ∧
        (readFields response).contentLength ≤ (body ++ data).length
    · rw [if_pos hend]
      refine .settled (complete_settled rfl hout' hreply (.direct hread hdirect (.inr (.inr ⟨?_, hend⟩))))
      exact List.append_ne_nil_of_right_ne_nil _ hdata
    · rw [if_neg hend]
      refine .streaming hread ⟨h.state, h.not_head, rfl, h.rewrite, rfl, fun _ => ⟨hout', .inr hend⟩,
        fun hrewrite => ?_⟩ rfl
      rw [hdirect] at hrewrite
      cases hrewrite
  · rw [if_pos herror]
    exact .settled (untaken_settled herror hall (by rwa [hout, List.append_assoc] at hpre) hreply)

theorem Streaming.consumeBody (h : Streaming settings (headOf received (body ++ data)) response plan body s)
    (hread : HeadRead settings received response (body ++ data) plan) (hdata : data ≠ []) :
    Inv allocates settings takes (consumeBody allocates settings takes s data) received false := by
  unfold HttpProxy.consumeBody
  cases hplan : plan.needsBodyRewrite with
  | true =>
    rw [if_pos (h.rewrite.trans hplan)]
    exact h.consumeRewriteBody hread hplan
  | false =>
    rw [if_neg (by rw [h.rewrite, hplan]; decide)]
    exact h.forwardBody hread hplan hdata

theorem Streaming.handleUpstreamEnd (h : Streaming settings (headOf received body) response plan body s)
    (hread : HeadRead settings received response body plan) :
    Settled allocates settings takes (handleUpstreamEnd allocates settings takes s) received true := by
  rw [HttpProxy.handleUpstreamEnd, h.rewrite]
  cases hplan : plan.needsBodyRewrite with
  | false =>
    exact complete_settled rfl (h.direct hplan).1 (.forwarded hread hplan h.not_head)
      (.direct hread hplan (.inr (.inl rfl)))
  | true =>
    obtain ⟨hout, hsaved, hcollected⟩ := h.held hplan
    rw [if_pos rfl, h.fields]
    by_cases hchunked : (readFields response).responseIsChunked
    · rw [Collected, if_pos hchunked] at hcollected
      obtain ⟨hresult, hdecoder, -, -⟩ := hcollected
      have hstate : s.chunkedDecoder.state ≠ .done := by
        rw [hdecoder, httpChunkedDecoderFeed_eq_feedLoop collect (by decide), Ne, feedLoop_state_done,
          ← httpChunkedDecoderFeed_eq_feedLoop collect (by decide), hresult]
        decide
      have hfinish : (httpChunkedDecoderFinish s.chunkedDecoder).2 ≠ .done := by
        unfold httpChunkedDecoderFinish
        split
        · simp
        · next hdone => exact absurd hdone hstate
        · simp
      rw [if_pos ⟨hchunked, hfinish⟩]
      refine error_settled rfl hout (.withheld hread hplan fun text _ htext => ?_)
      obtain ⟨-, hdone, -⟩ := (BodyText.chunked hchunked).1 htext
      rw [hresult] at hdone
      cases hdone
    · rw [Collected, if_neg hchunked] at hcollected
      obtain ⟨hbuffer, hlen, -⟩ := hcollected
      rw [if_neg fun hand => hchunked hand.1]
      refine finalizeRewrite_settled hread hplan h.state hout hsaved ((BodyText.plain hchunked).2 ?_)
      rw [hbuffer]
      exact ⟨hlen, rfl, .inl rfl⟩

/-- A playlist is not the answer to HEAD, nor empty by its length. -/
theorem needsBodyRewrite_true (h : needsBodyRewrite settings fields = .ok true) : settings.isHead = false ∧
    (fields.responseIsChunked = true ∨ ¬ (0 ≤ fields.contentLength ∧ fields.contentLength ≤ 0)) := by
  unfold HttpProxy.needsBodyRewrite at h
  split_ifs at h with hplaylist hcoding
  · injection h with h
    obtain ⟨-, -, -, hhead⟩ := hplaylist
    refine ⟨by simpa using hhead, ?_⟩
    rcases of_decide_eq_true h with hchunked | hlength | hlength
    · exact .inl hchunked
    · exact .inr (by omega)
    · exact .inr (by omega)
  · cases h

theorem planHead_rewrite (h : planHead settings head response = .ok plan) (hrewrite : plan.needsBodyRewrite = true) :
    plan.outputs = [] ∧ needsBodyRewrite settings (readFields response) = .ok true := by
  unfold planHead at h
  obtain ⟨needs, hneeds, h⟩ := Except.bind_eq_ok.1 h
  cases needs with
  | true =>
    cases h
    exact ⟨rfl, hneeds⟩
  | false =>
    obtain ⟨outputs, -, h⟩ := Except.bind_eq_ok.1 h
    cases h
    cases hrewrite

theorem streaming_start (hplan : planHead settings head response = .ok plan) (hhead : settings.isHead = false)
    (buffer : List UInt8) : Streaming settings head response plan []
      { Session.start with
        state := .streaming
        responseBuffer := buffer
        headersReceived := true
        fields := readFields response
        needsBodyRewrite := plan.needsBodyRewrite
        savedResponseHeaders := if plan.needsBodyRewrite then head else []
        output := plan.outputs.flatten } where
  state := rfl
  not_head := hhead
  fields := rfl
  rewrite := rfl
  bytes := rfl
  direct _ := ⟨(List.append_nil _).symm, .inl rfl⟩
  held hrewrite := by
    obtain ⟨houtputs, hneeds⟩ := planHead_rewrite hplan hrewrite
    refine ⟨by rw [houtputs]; rfl, if_pos hrewrite, ?_⟩
    by_cases hchunked : (readFields response).responseIsChunked
    · rw [Collected, if_pos hchunked, feed_collect_nil]
      exact ⟨rfl, rfl, rfl, Nat.zero_le _⟩
    · rw [Collected, if_neg hchunked]
      exact ⟨rfl, Nat.zero_le _, (needsBodyRewrite_true hneeds).2.resolve_left hchunked⟩

/-- The head is there, and the first part of the body. -/
theorem HeadRead.forwardHeaders (hread : HeadRead settings received response body plan) :
    let s := forwardHeaders settings takes
      { Session.start with responseBuffer := received, fields := readFields response, headersReceived := true }
      plan (headOf received body) body
    Inv allocates settings takes
      (if s.state ≠ .error ∧ s.headersReceived ∧ s.responseBuffer ≠ [] then
        HttpProxy.consumeBody allocates settings takes { s with responseBuffer := [] } s.responseBuffer
      else s) received false := by
  have hdirect (hhead : settings.isHead = true) : plan.needsBodyRewrite = false := by
    by_contra hrewrite
    have hneeds := (planHead_rewrite hread.plan (Bool.eq_true_of_not_eq_false hrewrite)).2
    rw [(needsBodyRewrite_true hneeds).1] at hhead
    cases hhead
  intro t
  generalize hs : ({ Session.start with
    responseBuffer := received
    fields := readFields response
    headersReceived := true
    needsBodyRewrite := plan.needsBodyRewrite
    savedResponseHeaders := if plan.needsBodyRewrite then headOf received body else [] } : Session) = s
  have ht : t =
      let s := queueOutputs takes s plan.outputs
      if s.state = .error then s
      else if settings.isHead then { s with responseBuffer := [], state := .complete }
      else { s with responseBuffer := body, state := .streaming } := hs ▸ rfl
  have hne : s.state ≠ .error := by rw [← hs]; simp [Session.start]
  have hout : s.output = [] := hs ▸ rfl
  dsimp only at ht
  have hqueued : Queued takes s plan.outputs.flatten (queueOutputs takes s plan.outputs) :=
    queueOutputs_queued hne plan.outputs
  rcases hqueued with heq | ⟨herror, hpre, hall⟩
  · rw [heq, if_neg hne, hout, List.nil_append] at ht
    by_cases hhead : settings.isHead
    · rw [if_pos hhead] at ht
      have hreply : Reply allocates settings received false
          (plan.outputs.flatten ++ if settings.isHead then [] else body) := .direct hread (hdirect hhead)
      rw [if_pos hhead, List.append_nil] at hreply
      rw [ht, if_neg fun hand => hand.2.2 rfl]
      exact .settled (complete_settled rfl rfl hreply (.direct hread (hdirect hhead) (.inl hhead)))
    · rw [if_neg hhead] at ht
      have hstart := streaming_start hread.plan (Bool.eq_false_of_not_eq_true hhead)
      subst hs
      rw [ht]
      by_cases hbody : body = []
      · subst hbody
        rw [if_neg fun hand => hand.2.2 rfl]
        exact .streaming hread (hstart _) rfl
      · rw [if_pos ⟨by simp, rfl, hbody⟩]
        have hfirst : Streaming settings (headOf received ([] ++ body)) response plan [] _ := hstart []
        exact hfirst.consumeBody hread hbody
  · rw [if_pos herror] at ht
    rw [ht, if_neg fun hand => hand.1 herror]
    cases hneeds : plan.needsBodyRewrite with
    | true =>
      rw [(planHead_rewrite hread.plan hneeds).1] at herror
      exact absurd herror hne
    | false =>
      rw [hout, List.nil_append] at hpre
      exact .settled (untaken_settled herror hall (hpre.trans (List.prefix_append _ _)) (.direct hread hneeds))

section ParseResponseHeaders

variable (settings takes s)

theorem parseResponseHeaders_short (h : phrParseResponse.parse s.responseBuffer = .short) :
    parseResponseHeaders settings takes s = s := by
  rw [parseResponseHeaders, h]

theorem parseResponseHeaders_bad (h : phrParseResponse.parse s.responseBuffer = .bad) :
    parseResponseHeaders settings takes s = s.fail := by
  rw [parseResponseHeaders, h]

variable (h : phrParseResponse.parse s.responseBuffer = .done response body)
include h

theorem parseResponseHeaders_refused {e : ProxyError}
    (hplan : planHead settings (headOf s.responseBuffer body) response = .error e) :
    parseResponseHeaders settings takes s =
      { s with fields := readFields response, headersReceived := true, state := .error } := by
  rw [parseResponseHeaders, h]
  dsimp only
  rw [hplan]
  rfl

theorem parseResponseHeaders_done (hplan : planHead settings (headOf s.responseBuffer body) response = .ok plan) :
    parseResponseHeaders settings takes s =
      forwardHeaders settings takes { s with fields := readFields response, headersReceived := true } plan
        (headOf s.responseBuffer body) body := by
  rw [parseResponseHeaders, h]
  dsimp only
  rw [hplan]

end ParseResponseHeaders

theorem receiveHeaders_inv (received bytes : List UInt8) : Inv allocates settings takes
    (receiveHeaders allocates settings takes { Session.start with responseBuffer := received } bytes)
    (received ++ bytes) false := by
  rw [receiveHeaders]
  set s : Session := { Session.start with responseBuffer := received ++ bytes }
  cases hparse : phrParseResponse.parse (received ++ bytes) with
  | short =>
    rw [parseResponseHeaders_short settings takes s hparse]
    rw [if_neg fun hand => Bool.false_ne_true hand.2.1]
    exact .awaiting rfl hparse rfl
  | bad =>
    rw [parseResponseHeaders_bad settings takes s hparse]
    rw [if_neg fun hand => hand.1 rfl]
    refine .settled (error_settled rfl rfl (.noHead fun response body h => ?_))
    rw [hparse] at h
    cases h
  | done response body =>
    cases hplan : planHead settings (headOf (received ++ bytes) body) response with
    | error e =>
      rw [parseResponseHeaders_refused settings takes s hparse hplan]
      dsimp only
      rw [if_neg fun hand => hand.1 rfl]
      exact .settled (error_settled rfl rfl (.refused hparse hplan))
    | ok plan =>
      rw [parseResponseHeaders_done settings takes s hparse hplan]
      exact HeadRead.forwardHeaders ⟨hparse, hplan⟩

/-! ### Runs -/

theorem Session.offered_settled (h : s.state = .complete ∨ s.state = .error) : s.offered = 0 := by
  rcases h with h | h <;> rw [offered, h]

theorem Session.reading_settled (h : s.state = .complete ∨ s.state = .error) : s.reading = false := by
  rcases h with h | h <;> rw [reading, h] <;> rfl

theorem tryReceiveResponse_settled (h : s.state = .complete ∨ s.state = .error) (answer : Received) :
    tryReceiveResponse allocates settings takes s answer = s := by
  unfold tryReceiveResponse
  rcases h with h | h <;> rw [h]

theorem handleSocketEnd_settled (h : s.state = .complete ∨ s.state = .error) (awaiting : State) :
    handleSocketEnd allocates settings takes awaiting s = s := by
  rcases h with h | h <;> rw [handleSocketEnd, h]

/-- Nothing has come of a head that is not complete. -/
theorem Reply.short (h : phrParseResponse.parse received = .short) : Reply allocates settings received ended [] :=
  .noHead fun response body hdone => by
    rw [h] at hdone
    cases hdone

/-- A read. -/
theorem Inv.readable (h : Inv allocates settings takes s received ended) (hbytes : bytes.length ≤ s.offered) :
    Inv allocates settings takes
      (tryReceiveResponse allocates settings takes s (if bytes = [] then .again else .data bytes))
      (received ++ bytes) ended := by
  cases h with
  | awaiting session parse hended =>
    subst session hended
    unfold tryReceiveResponse
    dsimp only
    by_cases hfull : Session.offered { Session.start with responseBuffer := received } = 0
    · have hnil : bytes = [] := List.length_eq_zero_iff.1 (Nat.le_zero.1 (hfull ▸ hbytes))
      rw [if_pos hfull, hnil, List.append_nil]
      exact .settled (error_settled rfl rfl (.short parse))
    · rw [if_neg hfull]
      by_cases hnil : bytes = []
      · rw [if_pos hnil, hnil, List.append_nil]
        exact .awaiting rfl parse rfl
      · rw [if_neg hnil]
        exact receiveHeaders_inv received bytes
  | streaming head session hended =>
    subst hended
    unfold tryReceiveResponse
    rw [session.state]
    dsimp only
    by_cases hnil : bytes = []
    · rw [if_pos hnil, hnil, List.append_nil]
      exact .streaming head session rfl
    · rw [if_neg hnil]
      refine Streaming.consumeBody ?_ (head.append bytes) hnil
      rw [headOf_append]
      exact session
  | settled session =>
    have hnil : bytes = [] :=
      List.length_eq_zero_iff.1 (Nat.le_zero.1 (Session.offered_settled session.terminal ▸ hbytes))
    rw [tryReceiveResponse_settled session.terminal, hnil, List.append_nil]
    exact .settled session

/-- The upstream server ends the response, by what `recv` says. -/
theorem Inv.close (h : Inv allocates settings takes s received ended) {answer : Received}
    (hanswer : answer = .closed ∨ answer = .failed) :
    Inv allocates settings takes (tryReceiveResponse allocates settings takes s answer) received
      (ended || s.reading) := by
  cases h with
  | awaiting session parse hended =>
    subst session hended
    unfold tryReceiveResponse
    dsimp only
    by_cases hfull : Session.offered { Session.start with responseBuffer := received } = 0
    · rw [if_pos hfull]
      exact .settled (error_settled rfl rfl (.short parse))
    · rw [if_neg hfull]
      rcases hanswer with rfl | rfl
      · exact .settled (complete_settled rfl rfl (.short parse) (.noHead parse rfl))
      · exact .settled (error_settled rfl rfl (.short parse))
  | streaming head session hended =>
    have hreading : s.reading = true := by rw [Session.reading, session.state]; rfl
    unfold tryReceiveResponse
    rw [session.state, hended, hreading]
    rcases hanswer with rfl | rfl <;> exact .settled (session.handleUpstreamEnd head)
  | settled session =>
    rw [tryReceiveResponse_settled session.terminal, Session.reading_settled session.terminal, Bool.or_false]
    exact .settled session

/-- The same by what the poller says. -/
theorem Inv.socketEnd (h : Inv allocates settings takes s received ended) {awaiting : State}
    (hawaiting : awaiting = .complete ∨ awaiting = .error) :
    Inv allocates settings takes (handleSocketEnd allocates settings takes awaiting s) received
      (ended || s.reading) := by
  cases h with
  | awaiting session parse hended =>
    subst session hended
    rcases hawaiting with rfl | rfl
    · exact .settled (complete_settled rfl rfl (.short parse) (.noHead parse rfl))
    · exact .settled (error_settled rfl rfl (.short parse))
  | streaming head session hended =>
    have hreading : s.reading = true := by rw [Session.reading, session.state]; rfl
    rw [handleSocketEnd, session.state, hended, hreading]
    exact .settled (session.handleUpstreamEnd head)
  | settled session =>
    rw [handleSocketEnd_settled session.terminal, Session.reading_settled session.terminal, Bool.or_false]
    exact .settled session

/-- What holds of an exchange after each of its events. -/
structure Kept (allocates : Nat → Bool) (settings : Settings) (takes : List UInt8 → List UInt8 → Nat)
    (upstream : List UInt8) (x : Exchange) : Prop where
  sent : upstream = x.received ++ x.unread
  session : Inv allocates settings takes x.session x.received x.ended

theorem Kept.handleSocketEvent {upstream : List UInt8} {x : Exchange} (h : Kept allocates settings takes upstream x)
    (event : UpstreamEvent) :
    Kept allocates settings takes upstream (handleSocketEvent allocates settings takes x event) := by
  cases event with
  | readable n =>
    dsimp only [HttpProxy.handleSocketEvent]
    generalize hbytes : x.unread.take (min n x.session.offered) = bytes
    have hle : bytes.length ≤ x.session.offered := by
      rw [← hbytes, List.length_take]
      omega
    have hsplit : x.unread = bytes ++ x.unread.drop bytes.length := by
      have hpre : bytes <+: x.unread := hbytes ▸ List.take_prefix _ _
      exact (List.prefix_iff_eq_append.1 hpre).symm
    refine ⟨?_, h.session.readable hle⟩
    rw [List.append_assoc, ← hsplit]
    exact h.sent
  | closed => exact ⟨h.sent, h.session.close (.inl rfl)⟩
  | failed => exact ⟨h.sent, h.session.close (.inr rfl)⟩
  | hangup => exact ⟨h.sent, h.session.socketEnd (.inl rfl)⟩
  | socketError => exact ⟨h.sent, h.session.socketEnd (.inr rfl)⟩

theorem exchange_kept (upstream : List UInt8) (events : List UpstreamEvent) :
    Kept allocates settings takes upstream (exchange allocates settings takes upstream events) := by
  have hstart : Kept allocates settings takes upstream ⟨.start, upstream, [], false⟩ := ⟨rfl, .awaiting rfl rfl rfl⟩
  exact @Run.invariant _ _ _ _ (fun _ => Kept allocates settings takes upstream)
    (fun _ _ event h => h.handleSocketEvent event) [] hstart events

theorem Streaming.not_finished (h : Streaming settings (headOf received body) response plan body s)
    (head : HeadRead settings received response body plan) : ¬ Finished settings received false := by
  rintro (⟨hparse, -⟩ | ⟨head', hdirect, hfinish⟩ | ⟨head', hrewrite, htext⟩)
  · rw [head.parse] at hparse
    cases hparse
  · obtain ⟨rfl, rfl, rfl⟩ := head.eq head'
    rcases hfinish with hhead | hended | ⟨hne, hlength⟩
    · rw [h.not_head] at hhead
      cases hhead
    · cases hended
    · exact (h.direct hdirect).2.elim hne fun hnot => hnot hlength
  · obtain ⟨rfl, rfl, rfl⟩ := head.eq head'
    obtain ⟨-, -, hcollected⟩ := h.held hrewrite
    by_cases hchunked : (readFields response).responseIsChunked
    · rw [Collected, if_pos hchunked] at hcollected
      have hdone := ((BodyText.chunked hchunked).1 htext).2.1
      rw [hcollected.1] at hdone
      cases hdone
    · rw [Collected, if_neg hchunked] at hcollected
      rcases ((BodyText.plain hchunked).1 htext).2.2 with hended | hlength
      · cases hended
      · exact hcollected.2.2 hlength

/-- A session that still reads is not at the end of the response. -/
theorem Inv.not_finished (h : Inv allocates settings takes s received ended) (hreading : s.reading = true) :
    ¬ Finished settings received ended := by
  cases h with
  | awaiting session parse hended =>
    rintro (⟨-, h⟩ | ⟨head, -, -⟩ | ⟨head, -, -⟩)
    · rw [hended] at h
      cases h
    · have hparse := head.parse
      rw [parse] at hparse
      cases hparse
    · have hparse := head.parse
      rw [parse] at hparse
      cases hparse
  | streaming head session hended =>
    subst hended
    exact session.not_finished head
  | settled session =>
    rw [Session.reading_settled session.terminal] at hreading
    cases hreading

/-- What the client has got. -/
theorem Inv.reply (h : Inv allocates settings takes s received ended) :
    ∃ reply, Reply allocates settings received ended reply ∧ s.output <+: reply ∧
      (s.state ≠ .error ∨ TakesAll takes → s.output = reply) := by
  cases h with
  | awaiting session parse hended =>
    subst session
    exact ⟨[], .short parse, List.prefix_rfl, fun _ => rfl⟩
  | streaming head session hended =>
    rename_i response body plan
    cases hplan : plan.needsBodyRewrite with
    | false =>
      have hout := (session.direct hplan).1
      exact ⟨_, .forwarded head hplan session.not_head, hout ▸ List.prefix_rfl, fun _ => hout⟩
    | true =>
      have hout := (session.held hplan).1
      subst hended
      refine ⟨[], .withheld head hplan fun text _ htext _ => ?_, hout ▸ List.prefix_rfl, fun _ => hout⟩
      exact session.not_finished head (.rewritten head hplan htext)
  | settled session =>
    obtain ⟨reply, hreply, hpre, heq⟩ := session.reply
    refine ⟨reply, hreply, hpre, fun h => heq (h.imp_left fun hne => ?_)⟩
    exact session.terminal.resolve_right hne

theorem Inv.finished (h : Inv allocates settings takes s received ended) (hcomplete : s.state = .complete) :
    Finished settings received ended := by
  cases h with
  | awaiting session parse hended =>
    rw [session] at hcomplete
    cases hcomplete
  | streaming head session hended =>
    rw [session.state] at hcomplete
    cases hcomplete
  | settled session => exact session.finished hcomplete

variable (allocates settings takes) in
/-- However the response of the upstream server arrives, the client gets what follows from the bytes received: the
whole of it, unless its queue refuses a part and ends the session. The session ends where the response does, or with
an error. -/
theorem exchange_reply (upstream : List UInt8) (events : List UpstreamEvent) :
    let x := exchange allocates settings takes upstream events
    upstream = x.received ++ x.unread ∧
      (∃ reply, Reply allocates settings x.received x.ended reply ∧ x.session.output <+: reply ∧
        (x.session.state ≠ .error ∨ TakesAll takes → x.session.output = reply)) ∧
      (x.session.state = .complete → Finished settings x.received x.ended) ∧
      (x.session.reading = true → ¬ Finished settings x.received x.ended) := by
  intro x
  have hkept : Kept allocates settings takes upstream x := exchange_kept upstream events
  exact ⟨hkept.sent, hkept.session.reply, hkept.session.finished, hkept.session.not_finished⟩

end Steps

end HttpProxy

end Rtp2httpd
