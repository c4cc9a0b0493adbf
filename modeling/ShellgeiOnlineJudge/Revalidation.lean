/-
A cache that asks whether what it keeps is still current (a library).

A server has one content at a time and gives each content a tag.  Between the sending of a
request, its answer and the arrival of the answer the server may be replaced by another
one; a request that lists tags may be answered with the current tag alone.  What is kept
is shown without a request for a limited time.

* `Run.shown_current` — what is shown was current after its request was sent, or a
  lifetime ago at most.
* `Run.not_fails` — no answer refers to something that is not kept.
-/
import Mathlib.Algebra.Order.Ring.Rat
import Mathlib.Data.List.Basic
import Mathlib.Tactic.Linarith

namespace Revalidation

/-- An answer of a server: what is kept is current, or new content. -/
inductive Answer (Content Tag : Type)
  | notModified (tag : Tag)
  | full (tag : Tag) (content : Content)

/-- A server that tags its contents, and requests that list tags. -/
structure Protocol (Server Request Content Tag : Type) where
  content : Server → Content
  tag : Content → Tag
  lists : Request → List Tag
  respond : Server → Request → Answer Content Tag
  /-- for how long an answer is fresh -/
  lifetime : ℚ

/-- What the cache keeps; its content was current at `since` or later. -/
structure Entry (Content Tag : Type) where
  tag : Tag
  content : Content
  since : ℚ

/-- A request under way, perhaps with its answer. -/
structure Pending (Request Content Tag : Type) where
  request : Request
  sentAt : ℚ
  answer : Option (Answer Content Tag)

/-- What the page gets to see of a step. -/
inductive Event (Content : Type)
  | quiet
  /-- this content is shown, for which something at this time or later has been asked -/
  | shows (content : Content) (since : ℚ)
  /-- the answer refers to something that is not kept -/
  | fails

/-- The server, the cache of the browser, and the requests under way. -/
structure State (Server Request Content Tag : Type) where
  now : ℚ
  server : Server
  entries : List (Entry Content Tag)
  pending : List (Pending Request Content Tag)
  /-- which server has answered when -/
  answered : List (ℚ × Server)

variable {Server Request Content Tag : Type} (P : Protocol Server Request Content Tag)

namespace Protocol

/-- The server answers what it has. -/
structure Correct : Prop where
  notModified : ∀ {server request tag}, P.respond server request = .notModified tag →
    tag = P.tag (P.content server) ∧ tag ∈ P.lists request
  full : ∀ {server request tag content}, P.respond server request = .full tag content →
    tag = P.tag (P.content server) ∧ content = P.content server

/-- No tag stands for two contents that were answered with. -/
def Distinguishes (answered : List (ℚ × Server)) : Prop :=
  ∀ a ∈ answered, ∀ b ∈ answered,
    P.tag (P.content a.2) = P.tag (P.content b.2) → P.content a.2 = P.content b.2

/-- An entry after the answer that it is still current -/
def refresh [DecidableEq Tag] (tag : Tag) (sentAt : ℚ) (entry : Entry Content Tag) :
    Entry Content Tag :=
  if entry.tag = tag then { entry with since := max entry.since sentAt } else entry

variable [DecidableEq Tag]

/-- What the time, the server and the browser may do. -/
inductive Step : State Server Request Content Tag → Event Content →
    State Server Request Content Tag → Prop
  | replace {s} (server : Server) : Step s .quiet { s with server := server }
  | elapse {s} (t : ℚ) (h : 0 ≤ t) : Step s .quiet { s with now := s.now + t }
  /-- only tags of what is kept are listed -/
  | send {s} (request : Request)
      (h : ∀ tag ∈ P.lists request, tag ∈ s.entries.map (·.tag)) :
      Step s .quiet { s with pending := s.pending ++ [⟨request, s.now, none⟩] }
  | answer {s before request sentAt after}
      (h : s.pending = before ++ ⟨request, sentAt, none⟩ :: after) :
      Step s .quiet
        { s with
          pending := before ++ ⟨request, sentAt, some (P.respond s.server request)⟩ :: after
          answered := (s.now, s.server) :: s.answered }
  | receiveFull {s before request sentAt tag content after}
      (h : s.pending = before ++ ⟨request, sentAt, some (.full tag content)⟩ :: after) :
      Step s (.shows content sentAt)
        { s with
          pending := before ++ after
          entries := ⟨tag, content, sentAt⟩ :: s.entries }
  | receiveNotModified {s before request sentAt tag after entry}
      (h : s.pending = before ++ ⟨request, sentAt, some (.notModified tag)⟩ :: after)
      (hentry : entry ∈ s.entries) (htag : entry.tag = tag) :
      Step s (.shows entry.content sentAt)
        { s with
          pending := before ++ after
          entries := s.entries.map (refresh tag sentAt) }
  | receiveUnknown {s before request sentAt tag after}
      (h : s.pending = before ++ ⟨request, sentAt, some (.notModified tag)⟩ :: after)
      (hentries : tag ∉ s.entries.map (·.tag)) :
      Step s .fails { s with pending := before ++ after }
  | lose {s before pending after} (h : s.pending = before ++ pending :: after) :
      Step s .quiet { s with pending := before ++ after }
  | reuse {s} (entry) (h : entry ∈ s.entries) (hfresh : s.now < entry.since + P.lifetime) :
      Step s (.shows entry.content (s.now - P.lifetime)) s
  /-- what a request lists is kept until its answer is there -/
  | evict {s before entry after} (h : s.entries = before ++ entry :: after)
      (hlisted : ∀ p ∈ s.pending, entry.tag ∉ P.lists p.request) :
      Step s .quiet { s with entries := before ++ after }

/-- What is reached from an empty cache -/
inductive Run : State Server Request Content Tag → Prop
  | start (now : ℚ) (server : Server) : Run ⟨now, server, [], [], []⟩
  | step {s event s'} : Run s → P.Step s event s' → Run s'

/-- Somebody who has answered at this time or later had this content. -/
def Answered (answered : List (ℚ × Server)) (since : ℚ) (content : Content) : Prop :=
  ∃ a ∈ answered, since ≤ a.1 ∧ content = P.content a.2

/-- Every entry and every answer under way comes from a server that answered. -/
structure Invariant (s : State Server Request Content Tag) : Prop where
  answered : ∀ a ∈ s.answered, a.1 ≤ s.now
  tagged : ∀ entry ∈ s.entries, entry.tag = P.tag entry.content
  entries : ∀ entry ∈ s.entries, P.Answered s.answered entry.since entry.content
  sent : ∀ p ∈ s.pending, p.sentAt ≤ s.now
  replies : ∀ p ∈ s.pending, ∀ reply, p.answer = some reply →
    ∃ a ∈ s.answered, p.sentAt ≤ a.1 ∧ reply = P.respond a.2 p.request
  listed : ∀ p ∈ s.pending, ∀ tag ∈ P.lists p.request, tag ∈ s.entries.map (·.tag)

end Protocol

open Protocol

variable {P} {s s' : State Server Request Content Tag} {event : Event Content}

theorem Protocol.Distinguishes.mono {answered answered' : List (ℚ × Server)}
    (h : P.Distinguishes answered') (hsub : answered ⊆ answered') : P.Distinguishes answered :=
  fun a ha b hb => h a (hsub ha) b (hsub hb)

theorem Protocol.Answered.mono {answered answered' : List (ℚ × Server)} {since : ℚ}
    {content : Content} (h : P.Answered answered since content) (hsub : answered ⊆ answered') :
    P.Answered answered' since content := by
  obtain ⟨a, ha, hrest⟩ := h
  exact ⟨a, hsub ha, hrest⟩

section Refresh

variable [DecidableEq Tag] {tag : Tag} {sentAt : ℚ} {entry : Entry Content Tag}

@[simp] theorem refresh_tag : (refresh tag sentAt entry).tag = entry.tag := by
  rw [refresh]
  split <;> rfl

@[simp] theorem refresh_content : (refresh tag sentAt entry).content = entry.content := by
  rw [refresh]
  split <;> rfl

theorem map_tag_refresh (entries : List (Entry Content Tag)) :
    (entries.map (refresh tag sentAt)).map (·.tag) = entries.map (·.tag) := by
  rw [List.map_map]
  exact List.map_congr_left fun entry _ => refresh_tag

end Refresh

theorem mem_of_eq_split {α : Type} {all before after : List α} {x : α}
    (h : all = before ++ x :: after) : x ∈ all := by
  rw [h]
  exact List.mem_append_right before List.mem_cons_self

theorem mem_of_mem_rest {α : Type} {all before after : List α} {x y : α}
    (h : all = before ++ y :: after) (hx : x ∈ before ++ after) : x ∈ all := by
  rw [h]
  rcases List.mem_append.1 hx with hx | hx
  · exact List.mem_append_left _ hx
  · exact List.mem_append_right _ (List.mem_cons_of_mem y hx)

/-- An answer with a tag has been given by somebody whose content has it. -/
theorem Protocol.Invariant.of_notModified (hP : P.Correct) (hinv : P.Invariant s)
    {p : Pending Request Content Tag} (hp : p ∈ s.pending) {tag : Tag}
    (hanswer : p.answer = some (.notModified tag)) :
    ∃ a ∈ s.answered, p.sentAt ≤ a.1 ∧ tag = P.tag (P.content a.2) ∧
      tag ∈ P.lists p.request := by
  obtain ⟨a, ha, hsent, hreply⟩ := hinv.replies p hp _ hanswer
  obtain ⟨htag, hlisted⟩ := hP.notModified hreply.symm
  exact ⟨a, ha, hsent, htag, hlisted⟩

/-- What is kept under the tag of an answer is what the answer is about. -/
theorem Protocol.Invariant.answered_entry (hP : P.Correct) (hinv : P.Invariant s)
    (hdistinct : P.Distinguishes s.answered) {p : Pending Request Content Tag}
    (hp : p ∈ s.pending) {entry : Entry Content Tag} (hentry : entry ∈ s.entries)
    (hanswer : p.answer = some (.notModified entry.tag)) :
    P.Answered s.answered p.sentAt entry.content := by
  obtain ⟨a, ha, hsent, htag, -⟩ := hinv.of_notModified hP hp hanswer
  obtain ⟨b, hb, -, hcontent⟩ := hinv.entries entry hentry
  refine ⟨a, ha, hsent, ?_⟩
  rw [hcontent]
  refine hdistinct b hb a ha ?_
  rw [← hcontent, ← hinv.tagged entry hentry, htag]

theorem Protocol.Invariant.of_full (hP : P.Correct) (hinv : P.Invariant s)
    {p : Pending Request Content Tag} (hp : p ∈ s.pending) {tag : Tag} {content : Content}
    (hanswer : p.answer = some (.full tag content)) :
    tag = P.tag content ∧ P.Answered s.answered p.sentAt content := by
  obtain ⟨a, ha, hsent, hreply⟩ := hinv.replies p hp _ hanswer
  obtain ⟨htag, hcontent⟩ := hP.full hreply.symm
  refine ⟨?_, a, ha, hsent, hcontent⟩
  rw [htag, hcontent]

/-- Without some of the pending requests, and with what is kept under the same tags. -/
theorem Protocol.Invariant.settle (hinv : P.Invariant s)
    {pending : List (Pending Request Content Tag)} {entries : List (Entry Content Tag)}
    (hpending : ∀ p ∈ pending, p ∈ s.pending)
    (htags : ∀ tag ∈ s.entries.map (·.tag), tag ∈ entries.map (·.tag))
    (hentries : ∀ entry ∈ entries, entry.tag = P.tag entry.content ∧
      P.Answered s.answered entry.since entry.content) :
    P.Invariant { s with pending := pending, entries := entries } where
  answered := hinv.answered
  tagged entry hentry := (hentries entry hentry).1
  entries entry hentry := (hentries entry hentry).2
  sent p hp := hinv.sent p (hpending p hp)
  replies p hp := hinv.replies p (hpending p hp)
  listed p hp tag htag := htags tag (hinv.listed p (hpending p hp) tag htag)

/-- The answer of the server is noted with the request. -/
theorem Protocol.Invariant.reply (hinv : P.Invariant s)
    {before after : List (Pending Request Content Tag)} {request : Request} {sentAt : ℚ}
    (hpending : s.pending = before ++ ⟨request, sentAt, none⟩ :: after) :
    P.Invariant
      { s with
        pending := before ++ ⟨request, sentAt, some (P.respond s.server request)⟩ :: after
        answered := (s.now, s.server) :: s.answered } := by
  have hold := mem_of_eq_split hpending
  have hsent : sentAt ≤ s.now := hinv.sent _ hold
  have hlisted : ∀ tag ∈ P.lists request, tag ∈ s.entries.map (·.tag) := hinv.listed _ hold
  have hsub : s.answered ⊆ (s.now, s.server) :: s.answered := List.subset_cons_self _ _
  -- the requests are as before, but for the one that got its answer
  have hcases : ∀ p ∈ before ++
      (⟨request, sentAt, some (P.respond s.server request)⟩ : Pending Request Content Tag) ::
        after,
      p ∈ s.pending ∨ p = ⟨request, sentAt, some (P.respond s.server request)⟩ := by
    intro p hp
    rcases List.mem_append.1 hp with hp | hp
    · exact .inl (mem_of_mem_rest hpending (List.mem_append_left _ hp))
    rcases List.mem_cons.1 hp with rfl | hp
    · exact .inr rfl
    · exact .inl (mem_of_mem_rest hpending (List.mem_append_right _ hp))
  refine ⟨?_, hinv.tagged, fun entry hentry => (hinv.entries entry hentry).mono hsub,
    fun p hp => ?_, fun p hp reply hreply => ?_, fun p hp => ?_⟩
  · intro a ha
    rcases List.mem_cons.1 ha with rfl | ha
    · exact le_rfl
    · exact hinv.answered a ha
  · rcases hcases p hp with hp | rfl
    · exact hinv.sent p hp
    · exact hsent
  · rcases hcases p hp with hp | rfl
    · obtain ⟨a, ha, hrest⟩ := hinv.replies p hp reply hreply
      exact ⟨a, hsub ha, hrest⟩
    · exact ⟨_, List.mem_cons_self, hsent, (Option.some.inj hreply).symm⟩
  · rcases hcases p hp with hp | rfl
    · exact hinv.listed p hp
    · exact hlisted

variable [DecidableEq Tag]

theorem Protocol.Step.answered_subset (h : P.Step s event s') : s.answered ⊆ s'.answered := by
  cases h with
  | answer h => exact List.subset_cons_self _ _
  | _ => exact List.Subset.refl _

theorem Protocol.Invariant.refreshed (hP : P.Correct) (hinv : P.Invariant s)
    (hdistinct : P.Distinguishes s.answered) {p : Pending Request Content Tag}
    (hp : p ∈ s.pending) {tag : Tag} (hanswer : p.answer = some (.notModified tag))
    {entry : Entry Content Tag} (hentry : entry ∈ s.entries.map (refresh tag p.sentAt)) :
    entry.tag = P.tag entry.content ∧ P.Answered s.answered entry.since entry.content := by
  obtain ⟨old, hold, rfl⟩ := List.mem_map.1 hentry
  rw [refresh_tag, refresh_content]
  refine ⟨hinv.tagged old hold, ?_⟩
  have hkept := hinv.entries old hold
  rw [refresh]
  split
  · next htag =>
    rw [← htag] at hanswer
    have hnew := hinv.answered_entry hP hdistinct hp hold hanswer
    show P.Answered s.answered (max old.since p.sentAt) old.content
    -- the later of the two times is one of them
    rcases max_choice old.since p.sentAt with hmax | hmax
    · rw [hmax]
      exact hkept
    · rw [hmax]
      exact hnew
  · exact hkept

theorem Protocol.Invariant.step (hP : P.Correct) (hinv : P.Invariant s)
    (hdistinct : P.Distinguishes s.answered) (h : P.Step s event s') : P.Invariant s' := by
  have hkept : ∀ entry ∈ s.entries, entry.tag = P.tag entry.content ∧
      P.Answered s.answered entry.since entry.content :=
    fun entry hentry => ⟨hinv.tagged entry hentry, hinv.entries entry hentry⟩
  cases h with
  | replace server =>
    exact ⟨hinv.answered, hinv.tagged, hinv.entries, hinv.sent, hinv.replies, hinv.listed⟩
  | elapse t ht =>
    refine ⟨fun a ha => ?_, hinv.tagged, hinv.entries, fun p hp => ?_, hinv.replies, hinv.listed⟩
    · have hold := hinv.answered a ha
      show a.1 ≤ s.now + t
      linarith
    · have hold := hinv.sent p hp
      show p.sentAt ≤ s.now + t
      linarith
  | send request hlisted =>
    refine ⟨hinv.answered, hinv.tagged, hinv.entries, ?_, ?_, ?_⟩
    -- the new request has no answer yet, and the others are as they were
    all_goals
      intro p hp
      rcases List.mem_append.1 hp with hp | hp
    · exact hinv.sent p hp
    · rw [List.mem_singleton.1 hp]
    · exact hinv.replies p hp
    · rw [List.mem_singleton.1 hp]
      exact fun _ hreply => nomatch hreply
    · exact hinv.listed p hp
    · rw [List.mem_singleton.1 hp]
      exact hlisted
  | answer hpending => exact hinv.reply hpending
  | receiveFull hpending =>
    obtain ⟨htag, hanswered⟩ := hinv.of_full hP (mem_of_eq_split hpending) rfl
    refine hinv.settle (fun p => mem_of_mem_rest hpending)
      (fun tag => List.mem_cons_of_mem _) fun entry hentry => ?_
    rcases List.mem_cons.1 hentry with rfl | hentry
    · exact ⟨htag, hanswered⟩
    · exact hkept entry hentry
  | receiveNotModified hpending =>
    refine hinv.settle (fun p => mem_of_mem_rest hpending) (fun tag htag => ?_)
      fun entry => hinv.refreshed hP hdistinct (mem_of_eq_split hpending) rfl
    rwa [map_tag_refresh]
  -- what is kept is not touched where the answer says nothing of it
  | receiveUnknown hpending =>
    exact hinv.settle (fun p => mem_of_mem_rest hpending) (fun _ => id) hkept
  | lose hpending => exact hinv.settle (fun p => mem_of_mem_rest hpending) (fun _ => id) hkept
  | reuse => exact hinv
  | @evict before gone after hentries hlisted =>
    refine ⟨hinv.answered, fun entry hentry => (hkept entry (mem_of_mem_rest hentries hentry)).1,
      fun entry hentry => (hkept entry (mem_of_mem_rest hentries hentry)).2, hinv.sent,
      hinv.replies, fun p hp tag htag => ?_⟩
    -- a listed tag is not that of the evicted entry, so its entry stays
    obtain ⟨entry, hentry, rfl⟩ := List.mem_map.1 (hinv.listed p hp tag htag)
    rw [hentries] at hentry
    rcases List.mem_append.1 hentry with hentry | hentry
    · exact List.mem_map_of_mem (List.mem_append_left _ hentry)
    rcases List.mem_cons.1 hentry with rfl | hentry
    · exact absurd htag (hlisted p hp)
    · exact List.mem_map_of_mem (List.mem_append_right _ hentry)

theorem Protocol.Run.invariant (hP : P.Correct) (h : P.Run s)
    (hdistinct : P.Distinguishes s.answered) : P.Invariant s := by
  induction h with
  | start now server => constructor <;> exact fun _ h => nomatch h
  | step hrun hstep ih =>
    have hbefore := hdistinct.mono hstep.answered_subset
    exact (ih hbefore).step hP hbefore hstep

/-- **What is shown was current.** -/
theorem Protocol.Run.shown_current (hP : P.Correct) (h : P.Run s)
    (hdistinct : P.Distinguishes s.answered) {content : Content} {since : ℚ}
    (hstep : P.Step s (.shows content since) s') :
    ∃ a ∈ s.answered, since ≤ a.1 ∧ a.1 ≤ s.now ∧ content = P.content a.2 := by
  have hinv := h.invariant hP hdistinct
  suffices P.Answered s.answered since content by
    obtain ⟨a, ha, hsince, hcontent⟩ := this
    exact ⟨a, ha, hsince, hinv.answered a ha, hcontent⟩
  cases hstep with
  | receiveFull hpending =>
    have hmem := mem_of_eq_split hpending
    exact (hinv.of_full hP hmem rfl).2
  | receiveNotModified hpending hentry htag =>
    subst htag
    have hmem := mem_of_eq_split hpending
    exact hinv.answered_entry hP hdistinct hmem hentry rfl
  | reuse entry hentry hfresh =>
    obtain ⟨a, ha, hsince, hcontent⟩ := hinv.entries entry hentry
    exact ⟨a, ha, by linarith, hcontent⟩

/-- **No answer refers to something that is not kept.** -/
theorem Protocol.Run.not_fails (hP : P.Correct) (h : P.Run s)
    (hdistinct : P.Distinguishes s.answered) : ¬ P.Step s .fails s' := by
  have hinv := h.invariant hP hdistinct
  intro hstep
  cases hstep with
  | receiveUnknown hpending hunknown =>
    have hmem := mem_of_eq_split hpending
    obtain ⟨_, -, -, -, hlisted⟩ := hinv.of_notModified hP hmem rfl
    exact hunknown (hinv.listed _ hmem _ hlisted)

end Revalidation
