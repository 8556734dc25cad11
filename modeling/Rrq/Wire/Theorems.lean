import Rrq.Wire

-- A job that is written as a hash is read back as it was.

namespace Rrq

def DateTime.InYears (time : DateTime) : Prop :=
  -62167219200 * 1000000000 ≤ time.nanos ∧ time.nanos < 253402300800 * 1000000000

instance (time : DateTime) : Decidable time.InYears := inferInstanceAs (Decidable (_ ∧ _))

def Json.isNull : Json → Bool
  | null => true
  | _ => false

namespace Job

def times (job : Job) : List DateTime :=
  job.enqueueTime :: (job.startTime.toList ++ job.nextScheduledRunTime.toList ++
    job.completionTime.toList)

-- The numbers of a job are 64-bit integers.
structure Sized (job : Job) : Prop where
  currentRetries : InI64 job.currentRetries
  maxRetries : InI64 job.maxRetries
  jobTimeoutSeconds : ∀ n ∈ job.jobTimeoutSeconds, InI64 n
  resultTtlSeconds : ∀ n ∈ job.resultTtlSeconds, InI64 n

end Job

-- The printers of the libraries are inverted on the values of a job. Only the null prints as one.
structure Codec.InvertsOn (codec : Codec) (job : Job) : Prop where
  times : ∀ time ∈ job.times, time.InYears → codec.time.Inverts time
  params : codec.params.Inverts job.jobParams
  null : isNullText (codec.json.print .null) = true
  result : ∀ value ∈ job.result, value ≠ .null → codec.json.Inverts value ∧
    codec.json.print value ≠ "" ∧ isNullText (codec.json.print value) = false
  contexts : ∀ context, context ∈ job.traceContext ∨ context ∈ job.correlationContext →
    codec.context.Inverts context ∧ isNullText (codec.context.print context) = false

theorem checkedI64_eq_some {n m : Int} (h : checkedI64 n = some m) : n = m ∧ InI64 m := by
  unfold checkedI64 at h
  split_ifs at h with hn
  obtain rfl := Option.some.inj h
  exact ⟨rfl, hn⟩

theorem checkedI64_of {n : Int} (h : InI64 n) : checkedI64 n = some n := if_pos h

theorem inI64_of_parseI64 {text : String} {n : Int} (h : parseI64 text = some n) : InI64 n := by
  unfold parseI64 at h
  split at h <;> obtain ⟨m, -, hm⟩ := Option.bind_eq_some_iff.mp h <;>
    exact (checkedI64_eq_some hm).2

namespace Wire

variable {codec : Codec}

-- The typed fields say to their readers what the texts say to theirs.

section Decode

theorem read_readText {α : Type} (read : String → Option α) (text : Option String) :
    (text.map (readText read)).bind Text.read = text.bind read := by
  cases text with
  | none => rfl
  | some text =>
      simp only [Option.map_some, Option.bind_some, readText]
      cases read text <;> rfl

theorem parse_readInt (text : Option String) :
    (text.map (readInt codec)).bind IntText.parse = text.bind parseI64 := by
  cases text with
  | none => rfl
  | some text =>
      simp only [Option.map_some, Option.bind_some, readInt]
      cases h : parseI64 text with
      | none => rfl
      | some n => exact checkedI64_of (inI64_of_parseI64 h)

theorem parseJson_readResult {text : Option String}
    (hnull : ∀ found, text = some found → codec.json.read found = some .null →
      isNullText found = true) :
    (text.map (readResult codec)).bind Rrq.parseJson = text.bind (parseJson codec) := by
  cases text with
  | none => rfl
  | some text =>
      simp only [Option.map_some, Option.bind_some, readResult, readText]
      by_cases hn : isNullText text = true
      · simp [hn, parseJson, Rrq.parseJson]
      · rw [if_neg hn]
        cases hread : parseJson codec text with
        | none => rfl
        | some value =>
            have hvalue : value ≠ .null := by
              rintro rfl
              unfold parseJson at hread
              split_ifs at hread
              exact hn (hnull text rfl hread)
            cases value <;> first | exact absurd rfl hvalue | rfl

theorem parseJobMap_decode (raw : RawHash) (fallbackId : JobId) (defaultMaxRetries : Int)
    (hnull : ∀ text, raw "result" = some text → codec.json.read text = some .null →
      isNullText text = true) :
    parseJobMap codec raw fallbackId defaultMaxRetries =
      Rrq.parseJobMap (decode codec raw) fallbackId defaultMaxRetries := by
  unfold parseJobMap Rrq.parseJobMap decode
  cases (raw "status").bind JobStatus.parse with
  | none => rfl
  | some status =>
      cases htime : (raw "enqueue_time").bind (parseDatetime codec) with
      | none => simp only [htime, read_readText]
      | some time =>
          simp only [htime, read_readText, parse_readInt, parseJson_readResult hnull]

end Decode

section Build

theorem readText_print {α : Type} {read : String → Option α} {text : String} {value : α}
    (h : read text = some value) : readText read text = .val value := by
  unfold readText
  rw [h]

theorem readInt_printI64 {n : Int} (h : InI64 n) : readInt codec (printI64 n) = .int n := by
  unfold readInt
  rw [parseI64_printI64, checkedI64_of h]

theorem map_readText {α : Type} (read : String → Option α) (print : α → String)
    {value : Option α} (h : ∀ found ∈ value, read (print found) = some found) :
    (value.map print).map (readText read) = value.map .val := by
  cases value with
  | none => rfl
  | some found => exact congrArg some (readText_print (h found rfl))

theorem map_readInt {value : Option Int} (h : ∀ n ∈ value, InI64 n) :
    (value.map printI64).map (readInt codec) = value.map .int := by
  cases value with
  | none => rfl
  | some n => exact congrArg some (readInt_printI64 (h n rfl))

theorem parseContext_print {context : Context}
    (h : codec.context.Inverts context ∧ isNullText (codec.context.print context) = false) :
    parseContext codec (codec.context.print context) = some context := by
  unfold parseContext
  rw [if_neg (by simp [h.2])]
  exact h.1

def written (codec : Codec) (job : Job) : RawHash :=
  RawHash.empty.hset (buildJobMapping codec job)

variable {job : Job}

theorem readResult_print (hc : codec.InvertsOn job) :
    readResult codec (codec.json.print (job.result.getD .null)) =
      .val (job.result.getD .null) := by
  by_cases hn : job.result.getD .null = .null
  · unfold readResult
    rw [hn, if_pos hc.null]
  · cases hresult : job.result with
    | none => simp [hresult] at hn
    | some value =>
        have hvalue : value ≠ .null := by simpa [hresult] using hn
        obtain ⟨hinv, hne, hnot⟩ := hc.result value hresult hvalue
        unfold readResult
        simp only [Option.getD_some, hnot, Bool.false_eq_true, if_false]
        refine readText_print ?_
        unfold parseJson
        rw [if_neg (by simp [hne, hnot])]
        exact hinv

-- The texts of a job hash decode to its typed fields.
theorem decode_written (hc : codec.InvertsOn job) (hs : job.Sized)
    (hy : ∀ time ∈ job.times, time.InYears) :
    decode codec (written codec job) = Rrq.buildJobMapping job := by
  have htime : ∀ time ∈ job.times, parseDatetime codec (codec.time.print time) = some time :=
    fun time ht => hc.times time ht (hy time ht)
  have htimes : ∀ value : Option DateTime, (∀ time ∈ value, time ∈ job.times) →
      (value.map codec.time.print).map (readText (parseDatetime codec)) = value.map .val :=
    fun value h => map_readText _ _ fun time ht => htime time (h time ht)
  have hstart := htimes job.startTime fun time ht => by
    simp [Job.times, Option.mem_def.mp ht]
  have hnext := htimes job.nextScheduledRunTime fun time ht => by
    simp [Job.times, Option.mem_def.mp ht]
  have hcompletion := htimes job.completionTime fun time ht => by
    simp [Job.times, Option.mem_def.mp ht]
  have hcontexts : ∀ value : Option Context,
      (∀ context ∈ value, context ∈ job.traceContext ∨ context ∈ job.correlationContext) →
      (value.map codec.context.print).map (readText (parseContext codec)) = value.map .val :=
    fun value h => map_readText _ _ fun context hm =>
      parseContext_print (hc.contexts context (h context hm))
  have htrace := hcontexts job.traceContext fun _ hm => .inl hm
  have hcorrelation := hcontexts job.correlationContext fun _ hm => .inr hm
  have hparams : readText codec.params.read (codec.params.print job.jobParams) =
      .val job.jobParams := readText_print hc.params
  have henqueue : readText (parseDatetime codec) (codec.time.print job.enqueueTime) =
      .val job.enqueueTime := readText_print (htime job.enqueueTime List.mem_cons_self)
  unfold decode written buildJobMapping Rrq.buildJobMapping
  simp [-Option.map_map, RawHash.empty, htrace, hcorrelation, hstart, hnext, hcompletion, hparams,
    henqueue, readInt_printI64 hs.currentRetries, readInt_printI64 hs.maxRetries,
    map_readInt hs.jobTimeoutSeconds, map_readInt hs.resultTtlSeconds, readResult_print hc]

theorem bind_map_val {α : Type} (value : Option α) : (value.map Text.val).bind Text.read = value := by
  cases value <;> rfl

theorem bind_map_int {value : Option Int} (h : ∀ n ∈ value, InI64 n) :
    (value.map IntText.int).bind IntText.parse = value := by
  cases value with
  | none => rfl
  | some n => exact checkedI64_of (h n rfl)

-- A null result is no result to its reader.
theorem parseJobMap_buildJobMapping (hs : job.Sized) (fallbackId : JobId)
    (defaultMaxRetries : Int) :
    Rrq.parseJobMap (Rrq.buildJobMapping job) fallbackId defaultMaxRetries =
      .ok { job with result := job.result.filter fun value => !value.isNull } := by
  have hresult : Rrq.parseJson (.val (job.result.getD .null)) =
      job.result.filter fun value => !value.isNull := by
    cases job.result with
    | none => rfl
    | some value => cases value <;> rfl
  unfold Rrq.parseJobMap Rrq.buildJobMapping
  simp only [Option.bind_some, JobStatus.parse_asStr, Text.read, bind_map_val, hresult,
    bind_map_int hs.jobTimeoutSeconds, bind_map_int hs.resultTtlSeconds, Option.getD_some,
    IntText.parse, checkedI64_of hs.currentRetries, checkedI64_of hs.maxRetries]

theorem written_result : written codec job "result" =
    some (codec.json.print (job.result.getD .null)) := by
  unfold written buildJobMapping
  simp

-- What is written of a job is read as that job, whatever stands in for missing fields.
theorem parseJobMap_written (hc : codec.InvertsOn job) (hs : job.Sized)
    (hy : ∀ time ∈ job.times, time.InYears) (fallbackId : JobId) (defaultMaxRetries : Int) :
    parseJobMap codec (written codec job) fallbackId defaultMaxRetries =
      .ok { job with result := job.result.filter fun value => !value.isNull } := by
  have hnull : ∀ text, written codec job "result" = some text →
      codec.json.read text = some .null → isNullText text = true := by
    intro text htext hread
    obtain rfl := Option.some.inj (written_result.symm.trans htext)
    by_cases hn : job.result.getD .null = .null
    · rw [hn]
      exact hc.null
    · cases hresult : job.result with
      | none => simp [hresult] at hn
      | some value =>
          have hvalue : value ≠ .null := by simpa [hresult] using hn
          rw [hresult, Option.getD_some] at hread
          exact absurd (Option.some.inj ((hc.result value hresult hvalue).1.symm.trans hread)) hvalue
  rw [parseJobMap_decode _ _ _ hnull, decode_written hc hs hy, parseJobMap_buildJobMapping hs]

-- One job with a result and a context, and what the libraries print of its values.

def sampleTime : DateTime := ⟨1704067200 * 1000000000⟩

def sampleCodec : Codec where
  time := {
    print := fun time => if time = sampleTime then "2024-01-01T00:00:00+00:00" else ""
    read := fun text => if text = "2024-01-01T00:00:00+00:00" then some sampleTime else none }
  json := {
    print := fun
      | .null => "null"
      | .bool value => toString value
      | _ => ""
    read := fun text =>
      if text = "null" then some .null
      else if text = "true" then some (.bool true)
      else if text = "false" then some (.bool false)
      else none }
  params := {
    print := fun
      | [] => "\x7b\x7d"
      | _ => ""
    read := fun text => if text = "\x7b\x7d" then some [] else none }
  context := {
    print := fun context =>
      if context = [("traceparent", "00")] then "\x7b\"traceparent\":\"00\"\x7d" else ""
    read := fun text =>
      if text = "\x7b\"traceparent\":\"00\"\x7d" then some [("traceparent", "00")] else none }
  tonumber _ := none

def sampleJob : Job where
  id := "j"
  functionName := "f"
  jobParams := []
  enqueueTime := sampleTime
  startTime := none
  status := .Completed
  currentRetries := 1
  nextScheduledRunTime := some sampleTime
  maxRetries := -3
  jobTimeoutSeconds := some 300
  resultTtlSeconds := none
  jobUniqueKey := some ""
  completionTime := some sampleTime
  result := some (.bool true)
  lastError := none
  queueName := some "rrq:queue:default"
  dlqName := none
  workerId := some "w0"
  traceContext := some [("traceparent", "00")]
  correlationContext := none

theorem invertsOn_sampleJob : sampleCodec.InvertsOn sampleJob where
  times time ht _ := by
    have htime : time = sampleTime := by simpa [Job.times, sampleJob] using ht
    subst htime
    rfl
  params := rfl
  null := by decide
  result value hvalue _ := by
    obtain rfl : .bool true = value := Option.some.inj hvalue
    exact ⟨rfl, by decide, by decide⟩
  contexts context hcontext := by
    have heq : context = [("traceparent", "00")] := by
      simpa [sampleJob, eq_comm] using hcontext
    subst heq
    exact ⟨rfl, by decide⟩

theorem sized_sampleJob : sampleJob.Sized := ⟨by decide, by decide, by decide, by decide⟩

theorem parseJobMap_written_sample :
    parseJobMap sampleCodec (written sampleCodec sampleJob) "other" 5 =
      .ok { sampleJob with result := sampleJob.result.filter fun value => !value.isNull } :=
  parseJobMap_written invertsOn_sampleJob sized_sampleJob
    (by simp [Job.times, sampleJob, DateTime.InYears, sampleTime]) "other" 5

end Build

end Wire

end Rrq
