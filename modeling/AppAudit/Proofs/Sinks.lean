/-
Reports at a sink that may fail.

A sink takes some writes and refuses every one after that. Who writes to it learns of a refusal in one of two ways.
Without a buffer every write is checked, and the first that is refused is the last one (`Sink.writeAll`). With a buffer
nothing is checked on the way: the writer remembers that a write was refused, passes nothing on any more, and tells at
the last flush (`Writer`). Both leave the sink with as many of the writes as it takes and report a failure exactly if
that is not all of them (`Rendering.send_eq`). No write is empty, so that a report of which a write is missing is
shorter than it should be.

Main results:
- `Rendering.send_accepting`: a rendering that is sent write by write is delivered;
- `Outlet.take_content`: standard output is such a sink;
- `report_whole_or_failed`: a report is at the sink as a whole, or there is an error;
- `writeReport_dashRemote`: a report that neither fails nor is written.
-/
import Mathlib.Tactic
import AppAudit.Proofs.ExitStatus

namespace AppAudit

/-! ## Buffers -/

namespace Buffer

theorem writes_eq (chunks : List Bytes) : writes chunks = (pushAll chunks).1 ++ flush (pushAll chunks).2 := rfl

theorem flatten_writes (chunks : List Bytes) : (writes chunks).flatten = chunks.flatten := by
  rw [writes_eq, List.flatten_append, flatten_flush, flatten_pushAll]

theorem push_ne_nil {kept chunk : Bytes} : ∀ bytes ∈ (push kept chunk).1, bytes ≠ [] := by
  unfold push
  dsimp only
  split_ifs with hfits hempty hrest
  · exact List.forall_mem_nil _
  · refine List.forall_mem_singleton.2 fun hnil => hfits ?_
    rw [hnil]
    exact Nat.zero_le _
  · refine List.forall_mem_singleton.2 fun hnil => hempty ?_
    rw [List.isEmpty_iff, (List.append_eq_nil_iff.1 hnil).1]
  · refine List.forall_mem_cons.2 ⟨fun hnil => hempty ?_, List.forall_mem_singleton.2 fun hnil => hrest ?_⟩
    · rw [List.isEmpty_iff, (List.append_eq_nil_iff.1 hnil).1]
    · rw [hnil]
      exact Nat.zero_le _

/-- a buffer passes nothing empty on -/
theorem writes_ne_nil (chunks : List Bytes) : ∀ bytes ∈ writes chunks, bytes ≠ [] := by
  have hsent : ∀ bytes ∈ (pushAll chunks).1, bytes ≠ [] := by
    induction chunks using List.reverseRecOn with
    | nil => exact List.forall_mem_nil _
    | append_singleton chunks chunk ih =>
      rw [pushAll_concat]
      exact List.forall_mem_append.2 ⟨ih, push_ne_nil⟩
  have hflushed : ∀ bytes ∈ flush (pushAll chunks).2, bytes ≠ [] := by
    unfold flush
    split_ifs with hempty
    · exact List.forall_mem_nil _
    · exact List.forall_mem_singleton.2 fun hnil => hempty (List.isEmpty_iff.2 hnil)
  rw [writes_eq]
  exact List.forall_mem_append.2 ⟨hsent, hflushed⟩

end Buffer

/-- where no write is empty, some of the writes are not all of the bytes -/
theorem flatten_take_of_lt {writes : List Bytes} (h : ∀ bytes ∈ writes, bytes ≠ []) {n : ℕ} (hn : n < writes.length) :
    (writes.take n).flatten <+: writes.flatten ∧ (writes.take n).flatten ≠ writes.flatten := by
  have hsplit : writes.flatten = (writes.take n).flatten ++ (writes.drop n).flatten := by
    rw [← List.flatten_append, List.take_append_drop]
  have hrest : (writes.drop n).flatten ≠ [] := by
    rw [List.drop_eq_getElem_cons hn, List.flatten_cons]
    exact List.append_ne_nil_of_left_ne_nil (h _ (List.getElem_mem hn)) _
  refine ⟨⟨_, hsplit.symm⟩, fun hsame => hrest ?_⟩
  rw [hsplit] at hsame
  exact List.append_right_eq_self.1 hsame.symm

/-! ## Sinks -/

/-- what a sink has taken, how many writes more it takes, and whether it has refused one -/
@[ext]
structure Sink where
  taken : List Bytes
  left : ℕ
  refused : Bool
deriving DecidableEq, Repr

namespace Sink

/-- a sink that takes a number of writes and then fails -/
def accepting (accepts : ℕ) : Sink := ⟨[], accepts, false⟩

/-- one write, and whether it was taken -/
def write (s : Sink) (bytes : Bytes) : Sink × Bool :=
  match s.left with
  | 0 => ({ s with refused := true }, false)
  | left + 1 => ({ s with taken := s.taken ++ [bytes], left }, true)

/-- writes one after the other, up to the first that is refused, and whether all were taken -/
def writeAll (s : Sink) : List Bytes → Sink × Bool
  | [] => (s, true)
  | bytes :: rest =>
    match s.write bytes with
    | (s, true) => s.writeAll rest
    | (s, false) => (s, false)

/-- the sink after some writes have been made, whoever made them -/
def after (s : Sink) (writes : List Bytes) : Sink :=
  { taken := s.taken ++ writes.take s.left
    left := s.left - writes.length
    refused := s.refused || decide (s.left < writes.length) }

theorem after_nil (s : Sink) : s.after [] = s := by
  simp [after]

theorem after_append (s : Sink) (a b : List Bytes) : (s.after a).after b = s.after (a ++ b) := by
  ext1
  · change s.taken ++ a.take s.left ++ b.take (s.left - a.length) = s.taken ++ (a ++ b).take s.left
    rw [List.take_append, List.append_assoc]
  · change s.left - a.length - b.length = s.left - (a ++ b).length
    rw [List.length_append, Nat.sub_sub]
  · change (s.refused || decide (s.left < a.length) || decide (s.left - a.length < b.length)) =
      (s.refused || decide (s.left < (a ++ b).length))
    rw [List.length_append, Bool.or_assoc, ← Bool.decide_or]
    congr 2
    exact propext (by omega)

/-- a sink that has refused a write takes none -/
theorem after_append_of_lt {s : Sink} {a : List Bytes} (h : s.left < a.length) (b : List Bytes) :
    s.after (a ++ b) = s.after a := by
  have hab : s.left < a.length + b.length := Nat.lt_add_right _ h
  simp only [after, List.take_append_of_le_length h.le, List.length_append, decide_eq_true hab, decide_eq_true h,
    Nat.sub_eq_zero_of_le h.le, Nat.sub_eq_zero_of_le hab.le]

theorem writeAll_eq (s : Sink) (writes : List Bytes) :
    s.writeAll writes = (s.after writes, decide (writes.length ≤ s.left)) := by
  induction writes generalizing s with
  | nil => simp [writeAll, after]
  | cons bytes rest ih =>
    cases hleft : s.left with
    | zero => simp [writeAll, write, after, hleft]
    | succ left => simp [writeAll, write, after, hleft, ih]

end Sink

/-! ## Writers -/

/-- a writer with a buffer: its sink, what it keeps back, and whether a write of it was refused -/
structure Writer where
  sink : Sink
  kept : Bytes := []
  broken : Bool := false

namespace Writer

/-- a write into the buffer, nobody asks whether it succeeded; after a failure it does nothing -/
def print (w : Writer) (chunk : Bytes) : Writer :=
  if w.broken then w
  else
    let pushed := Buffer.push w.kept chunk
    let sent := w.sink.writeAll pushed.1
    { sink := sent.1, kept := pushed.2, broken := !sent.2 }

/-- writes what was kept back, and tells whether everything has been written -/
def flush (w : Writer) : Sink × Bool := if w.broken then (w.sink, false) else w.sink.writeAll (Buffer.flush w.kept)

/-- what a writer has come to that was given some chunks -/
structure Ran (s : Sink) (chunks : List Bytes) (w : Writer) : Prop where
  sink : w.sink = s.after (Buffer.pushAll chunks).1
  broken : w.broken = decide (s.left < (Buffer.pushAll chunks).1.length)
  kept : w.broken = false → w.kept = (Buffer.pushAll chunks).2

variable {s : Sink} {chunks : List Bytes} {w : Writer}

theorem Ran.start (s : Sink) : Ran s [] { sink := s } where
  sink := s.after_nil.symm
  broken := rfl
  kept _ := rfl

theorem Ran.print (h : Ran s chunks w) (chunk : Bytes) : Ran s (chunks ++ [chunk]) (w.print chunk) := by
  obtain ⟨hsink, hbroken, hkept⟩ := h
  unfold Writer.print
  cases hw : w.broken with
  | true =>
    have hlt : s.left < (Buffer.pushAll chunks).1.length := of_decide_eq_true (hbroken ▸ hw)
    have hlt' := Nat.lt_add_right (Buffer.push (Buffer.pushAll chunks).2 chunk).1.length hlt
    rw [if_pos rfl]
    constructor
    · rw [Buffer.pushAll_concat, hsink, Sink.after_append_of_lt hlt]
    · rw [Buffer.pushAll_concat, List.length_append, hw, decide_eq_true hlt']
    · rw [hw]
      exact fun hfalse => absurd hfalse (by decide)
  | false =>
    have hle : (Buffer.pushAll chunks).1.length ≤ s.left := not_lt.1 (of_decide_eq_false (hbroken ▸ hw))
    rw [if_neg Bool.false_ne_true, hkept hw, hsink]
    dsimp only
    rw [Sink.writeAll_eq]
    constructor
    · rw [Buffer.pushAll_concat, Sink.after_append]
    · rw [Buffer.pushAll_concat, List.length_append, ← decide_not, Bool.eq_iff_iff, decide_eq_true_eq,
        decide_eq_true_eq]
      dsimp only [Sink.after]
      omega
    · rw [Buffer.pushAll_concat]
      exact fun _ => rfl

theorem ran_foldl (s : Sink) (chunks : List Bytes) : Ran s chunks (chunks.foldl Writer.print { sink := s }) := by
  induction chunks using List.reverseRecOn with
  | nil => exact .start s
  | append_singleton chunks chunk ih =>
    rw [List.foldl_append]
    exact ih.print chunk

/-- however the writer came to it, its sink has been given the writes of the buffer -/
theorem Ran.flush (h : Ran s chunks w) :
    w.flush = (s.after (Buffer.writes chunks), decide ((Buffer.writes chunks).length ≤ s.left)) := by
  obtain ⟨hsink, hbroken, hkept⟩ := h
  unfold Writer.flush
  rw [Buffer.writes_eq, List.length_append]
  cases hw : w.broken with
  | true =>
    have hlt : s.left < (Buffer.pushAll chunks).1.length := of_decide_eq_true (hbroken ▸ hw)
    have hmore (more : ℕ) : ¬(Buffer.pushAll chunks).1.length + more ≤ s.left := by omega
    rw [if_pos rfl, hsink, Sink.after_append_of_lt hlt, decide_eq_false (hmore _)]
  | false =>
    have hle : (Buffer.pushAll chunks).1.length ≤ s.left := not_lt.1 (of_decide_eq_false (hbroken ▸ hw))
    have hmore (more : ℕ) : more ≤ s.left - (Buffer.pushAll chunks).1.length ↔
        (Buffer.pushAll chunks).1.length + more ≤ s.left := by omega
    rw [if_neg Bool.false_ne_true, hkept hw, hsink, Sink.writeAll_eq, Sink.after_append]
    simp only [Sink.after, hmore]

end Writer

/-! ## Renderings -/

namespace Rendering

/-- writes a rendering to a sink, through a buffer of its own or not, and tells whether everything has been written -/
def send (r : Rendering) (s : Sink) : Sink × Bool :=
  if r.buffered then (r.chunks.foldl Writer.print { sink := s }).flush else s.writeAll r.chunks

/-- the sink is given the writes that reach it, and everything has been written if it took them all -/
theorem send_eq (r : Rendering) (s : Sink) : r.send s = (s.after r.writes, decide (r.writes.length ≤ s.left)) := by
  unfold send writes
  split_ifs
  · exact (Writer.ran_foldl s r.chunks).flush
  · exact s.writeAll_eq r.chunks

/-- a rendering that does not break off is sent as it is delivered, write by write -/
theorem send_accepting {r : Rendering} (h : r.failure = none) (accepts : ℕ) (failure : String) :
    (r.send (.accepting accepts)).1 =
      ⟨(r.deliver accepts failure).1, accepts - r.writes.length, decide (accepts < r.writes.length)⟩ ∧
    (if (r.send (.accepting accepts)).2 then none else some (r.context ++ failure)) =
      (r.deliver accepts failure).2 := by
  rw [send_eq, deliver, h]
  refine ⟨rfl, ?_⟩
  by_cases hall : r.writes.length ≤ accepts
  · rw [if_neg (not_lt.2 hall)]
    exact if_pos (decide_eq_true hall)
  · rw [if_pos (not_le.1 hall)]
    exact if_neg fun h => hall (of_decide_eq_true h)

theorem flatten_writes (r : Rendering) : r.writes.flatten = r.content := by
  unfold writes
  split_ifs
  · exact Buffer.flatten_writes r.chunks
  · rfl

/-- the rendering of a text: it does not break off, and nothing empty is written -/
structure Renders (r : Rendering) (text : String) : Prop where
  content : r.content = textBytes text
  filled : ∀ bytes ∈ r.writes, bytes ≠ []
  failure : r.failure = none

end Rendering

/-! ## Standard output -/

/-- the first bytes of some writes are whole writes and a beginning of the next one -/
theorem exists_take_flatten (writes : List Bytes) (room : ℕ) :
    ∃ n rest, writes.flatten.take room = (writes.take n).flatten ++ rest ∧ rest <+: (writes[n]?).getD [] ∧
      (room < writes.flatten.length ↔ n < writes.length) := by
  induction writes generalizing room with
  | nil => exact ⟨0, [], by simp, List.nil_prefix, by simp⟩
  | cons bytes writes ih =>
    by_cases hcut : room < bytes.length
    · refine ⟨0, bytes.take room, ?_, List.take_prefix _ _, iff_of_true ?_ (Nat.succ_pos _)⟩
      · rw [List.flatten_cons, List.take_append_of_le_length hcut.le]
        rfl
      · rw [List.flatten_cons, List.length_append]
        exact Nat.lt_add_right _ hcut
    · obtain ⟨n, rest, htaken, hrest, hall⟩ := ih (room - bytes.length)
      have hle : bytes.length ≤ room := not_lt.1 hcut
      refine ⟨n + 1, rest, ?_, hrest, ?_⟩
      · rw [List.flatten_cons, List.take_append, List.take_of_length_le hle, htaken, List.take_succ_cons,
          List.flatten_cons, List.append_assoc]
      · rw [List.flatten_cons, List.length_append, List.length_cons, Nat.succ_lt_succ_iff, ← hall]
        omega

/-- **Standard output is a sink.** It takes a rendering like a sink that takes some of the writes, except that it may take
a part of the first one that it refuses as well. -/
theorem Outlet.take_content (o : Outlet) {r : Rendering} (h : r.failure = none) :
    ∃ accepts rest, (o.take r.content).1 = (r.deliver accepts o.failure).1.flatten ++ rest ∧
      rest <+: (r.writes[accepts]?).getD [] ∧
      (o.take r.content).2.map (r.context ++ ·) = (r.deliver accepts o.failure).2 := by
  unfold take Rendering.deliver
  rw [← r.flatten_writes, h]
  cases o.room with
  | none => exact ⟨r.writes.length, [], by simp, List.nil_prefix, by simp⟩
  | some room =>
    obtain ⟨n, rest, htaken, hrest, hall⟩ := exists_take_flatten r.writes room
    refine ⟨n, rest, htaken, hrest, ?_⟩
    simp only [hall]
    split_ifs <;> rfl

/-! ## Reports -/

/-- the whole report of a result in a format, if the look-up of its origin does not break down -/
def ReportFormat.report (r : Result) (c : ReportContext) : ReportFormat → Except Remote.Breakdown String
  | text => .ok (TextReport.render r.snapshot)
  | json => .ok (jsonReport r.snapshot)
  | sarif => c.provenance.map fun provenance =>
    (Sarif.document (Sarif.run r c.toolVersion c.guid provenance)).pretty ++ "\n"

/-- writes the report in the format with a name to a sink whose failures have a text: the sink then, and either the text
of an error, if there is one, or what broke down -/
def writeReport (format : String) (r : Option Result) (c : ReportContext) (failure : String) (s : Sink) :
    Sink × Except Remote.Breakdown (Option String) :=
  match renderReport format r c with
  | .error (.brokenDown cause) => (s, .error cause)
  | .error e => (s, .ok (some e.text))
  | .ok rendering =>
    let sent := rendering.send s
    (sent.1, .ok (if sent.2 then none else some (rendering.context ++ failure)))

section

variable {format : String} {f : ReportFormat} {r : Result} {c : ReportContext}

theorem renderReport_of_name (h : format = f.name ∨ format = "" ∧ f = .text) :
    renderReport format (some r) c = f.render r c := by
  rcases h with rfl | ⟨rfl, rfl⟩
  · cases f <;> rfl
  · rfl

theorem renderReport_of_unknown (hempty : format ≠ "") (h : ∀ f : ReportFormat, format ≠ f.name) :
    renderReport format (some r) c = .error (.unsupported format) := by
  have hnone : ReportFormat.ofName? format = none := by
    rw [Option.eq_none_iff_forall_ne_some]
    exact fun f hf => h f (ReportFormat.ofName?_eq_some.1 hf)
  have hne : ¬format.isEmpty = true := fun he => hempty (String.isEmpty_iff.1 he)
  simp only [renderReport, if_neg hne, hnone]

theorem textBytes_append_ne_nil (a : String) {b : String} (h : textBytes b ≠ []) : textBytes (a ++ b) ≠ [] := by
  rw [textBytes_append]
  exact List.append_ne_nil_of_right_ne_nil _ h

theorem pretty_document_ne_nil (run : Sarif.Run) : textBytes (Sarif.document run).pretty ≠ [] := by
  unfold Sarif.document Json.pretty Json.indented Json.block
  rw [if_neg (by simp [Json.indentedMembers])]
  exact textBytes_append_ne_nil _ (by decide)

theorem render_of_report {text : String} (h : f.report r c = .ok text) :
    ∃ rendering, f.render r c = .ok rendering ∧ rendering.Renders text := by
  cases f with
  | text =>
    obtain rfl := Except.ok.inj h
    refine ⟨_, rfl, Except.ok.inj (content_text r c), ?_, rfl⟩
    exact Buffer.writes_ne_nil ((TextReport.lines r.snapshot).map textBytes)
  | json =>
    obtain rfl := Except.ok.inj h
    refine ⟨_, rfl, Except.ok.inj (content_json r c), ?_, rfl⟩
    exact List.forall_mem_singleton.2 (textBytes_append_ne_nil _ (by decide))
  | sarif =>
    cases hc : c.provenance with
    | error cause =>
      rw [ReportFormat.report, hc] at h
      cases h
    | ok provenance =>
      rw [ReportFormat.report, hc] at h
      obtain rfl := Except.ok.inj h
      have hcontent := content_sarif r hc
      simp only [ReportFormat.render, hc] at hcontent ⊢
      refine ⟨_, rfl, Except.ok.inj hcontent, ?_, rfl⟩
      exact List.forall_mem_cons.2 ⟨pretty_document_ne_nil _, List.forall_mem_singleton.2 (by decide)⟩

theorem render_of_breakdown {cause : Remote.Breakdown} (h : f.report r c = .error cause) :
    f.render r c = .error (.brokenDown cause) := by
  cases f with
  | text => cases h
  | json => cases h
  | sarif =>
    cases hc : c.provenance with
    | error cause' =>
      rw [ReportFormat.report, hc] at h
      obtain rfl := Except.error.inj h
      simp only [ReportFormat.render, hc]
    | ok provenance =>
      rw [ReportFormat.report, hc] at h
      cases h

/-- a report is written as its rendering is delivered -/
theorem writeReport_of_report {text : String} (hname : format = f.name ∨ format = "" ∧ f = .text)
    (h : f.report r c = .ok text) (failure : String) (accepts : ℕ) :
    ∃ rendering, renderReport format (some r) c = .ok rendering ∧ rendering.Renders text ∧
      writeReport format (some r) c failure (.accepting accepts) =
        (⟨(rendering.deliver accepts failure).1, accepts - rendering.writes.length,
          decide (accepts < rendering.writes.length)⟩, .ok (rendering.deliver accepts failure).2) := by
  obtain ⟨rendering, hrender, hrenders⟩ := render_of_report h
  have hreport := (renderReport_of_name hname).trans hrender
  obtain ⟨hsink, herror⟩ := Rendering.send_accepting hrenders.failure accepts failure
  refine ⟨rendering, hreport, hrenders, ?_⟩
  rw [writeReport, hreport]
  dsimp only
  rw [hsink, herror]

end

/-- **No report is cut off in silence.** Let a sink take some writes and refuse the others. A report in a known format
is at the sink as a whole if no error is returned, and that is so exactly if the sink has refused nothing; otherwise an
error is returned, and what the sink has is shorter than the report. Both are what `Rendering.deliver`
says. Only the report that states the origin of the sources can come to neither: where their look-up breaks down
nothing is written and nothing returned. Without a result, or in a format that is not known, an error is returned and
nothing is written. -/
theorem report_whole_or_failed (c : ReportContext) (failure : String) (accepts : ℕ) :
    (∀ (format : String) (f : ReportFormat) (r : Result), format = f.name ∨ format = "" ∧ f = .text →
      let out := writeReport format (some r) c failure (.accepting accepts)
      (∀ text, f.report r c = .ok text →
        (out.2 = .ok none ↔ out.1.refused = false) ∧
        (out.2 = .ok none → out.1.taken.flatten = textBytes text) ∧
        (out.2 ≠ .ok none → (∃ message, out.2 = .ok (some message)) ∧
          out.1.taken.flatten <+: textBytes text ∧ out.1.taken.flatten ≠ textBytes text) ∧
        ∃ rendering, renderReport format (some r) c = .ok rendering ∧
          out.1.taken = (rendering.deliver accepts failure).1 ∧ out.2 = .ok (rendering.deliver accepts failure).2) ∧
      ∀ cause, f.report r c = .error cause → out = (.accepting accepts, .error cause)) ∧
    (∀ format, writeReport format none c failure (.accepting accepts) =
      (.accepting accepts, .ok (some "result is nil"))) ∧
    ∀ (format : String) (r : Result), format ≠ "" → (∀ f : ReportFormat, format ≠ f.name) →
      writeReport format (some r) c failure (.accepting accepts) =
        (.accepting accepts, .ok (some ("unsupported report format " ++ quoted format))) := by
  refine ⟨fun format f r hname => ⟨fun text htext => ?_, fun cause hcause => ?_⟩, fun format => rfl, ?_⟩
  · obtain ⟨rendering, hreport, hrenders, hout⟩ := writeReport_of_report hname htext failure accepts
    rw [hout, hreport, ← hrenders.content, ← rendering.flatten_writes]
    refine ⟨?_, ?_, ?_, rendering, rfl, rfl, rfl⟩
    all_goals rw [Rendering.deliver, hrenders.failure]
    · by_cases hcut : accepts < rendering.writes.length <;> simp [hcut]
    · intro hdone
      have hall : rendering.writes.length ≤ accepts := by
        by_contra hcut
        simp [not_le.1 hcut] at hdone
      rw [List.take_of_length_le hall]
    · intro hfailed
      have hcut : accepts < rendering.writes.length := by
        by_contra hall
        simp [hall] at hfailed
      exact ⟨⟨_, by rw [if_pos hcut]⟩, flatten_take_of_lt hrenders.filled hcut⟩
  · rw [writeReport, renderReport_of_name hname, render_of_breakdown hcause]
  · intro format r hempty hunknown
    rw [writeReport, renderReport_of_unknown hempty hunknown]
    rfl

/-- a SARIF report without its last line break is not passed off as a report -/
theorem report_whole_or_failed_noResults :
    let c : ReportContext := ⟨"1.0", "id", .ok none⟩
    (writeReport "" (some .empty) c "sink failed" (.accepting 1)).1.taken.flatten =
      textBytes (TextReport.render Result.empty.snapshot) ∧
    ∃ message, (writeReport "sarif" (some .empty) c "sink failed" (.accepting 1)).2 = .ok (some message) := by
  intro c
  obtain ⟨hknown, -, -⟩ := report_whole_or_failed c "sink failed" 1
  constructor
  · obtain ⟨hdone, hwhole, -, -⟩ := (hknown "" .text .empty (Or.inr ⟨rfl, rfl⟩)).1 _ rfl
    exact hwhole (hdone.2 (by decide))
  · obtain ⟨hdone, -, hcut, -⟩ := (hknown "sarif" .sarif .empty (Or.inl rfl)).1 _ rfl
    have hrefused : (writeReport "sarif" (some .empty) c "sink failed" (.accepting 1)).1.refused = true := rfl
    exact (hcut fun hnone => absurd (hrefused.symm.trans (hdone.1 hnone)) (by decide)).1

/-- **A report that neither fails nor is written.** Where the look-up of the origin breaks down, no error is not the
same as a sink that has refused nothing. -/
theorem writeReport_dashRemote :
    let out := writeReport "sarif" (some .empty) ⟨"", "id", dashTree.provenance ".".toList⟩ "sink failed" (.accepting 5)
    ¬(out.2 = .ok none ↔ out.1.refused = false) ∧ out.1.taken = [] := by
  intro out
  have hout : out = (.accepting 5, .error ⟨⟩) := by
    unfold out
    rw [provenance_dashTree]
    rfl
  rw [hout]
  refine ⟨fun h => ?_, rfl⟩
  cases h.2 rfl

end AppAudit
