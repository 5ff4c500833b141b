import Sm83.Runner
import Sm83.Proofs.System.Serial

/-!
What the runner reports. It looks for the markers only when there is new output, and yet ends after
the first step at which a fault, a marker or the budget ends a run that looks for them after every
step: `verdict_of_first`.
-/
namespace Sm83.Runner
open Text

/-- The marker, which is not empty, stands somewhere in the serial output. -/
def Shows (s : System) (marker : String) : Prop :=
  marker.toUTF8.data.toList ≠ [] ∧ marker.toUTF8.data.toList <:+: s.bus.serial.toList

/-- A run of `s` may end after this number of steps, with this verdict. -/
inductive Ends (settings : Settings) (s : System) : Nat → Verdict → Prop
  | unstarted (late : settings.maxCycles = 0) : Ends settings s 0 .timedOut
  | faulted {n : Nat} {fault : Fault} (fails : (s.after n).step.1 = .error fault) :
      Ends settings s (n + 1) .faulted
  | failed {n : Nat} (taken : (s.after n).step.1.isOk)
      (fails : Shows (s.after (n + 1)) settings.failMarker) : Ends settings s (n + 1) .failed
  | passed {n : Nat} (taken : (s.after n).step.1.isOk)
      (unfailed : ¬Shows (s.after (n + 1)) settings.failMarker)
      (passes : Shows (s.after (n + 1)) settings.passMarker) : Ends settings s (n + 1) .passed
  | timedOut {n : Nat} (taken : (s.after n).step.1.isOk)
      (unfailed : ¬Shows (s.after (n + 1)) settings.failMarker)
      (unpassed : ¬Shows (s.after (n + 1)) settings.passMarker)
      (late : settings.maxCycles ≤ (s.after (n + 1)).clock) : Ends settings s (n + 1) .timedOut

variable {settings : Settings} {s t : System}

theorem Ends.unique {n : Nat} {u v : Verdict} (one : Ends settings s n u) (other : Ends settings s n v) :
    u = v := by
  have excluded {k : Nat} {fault : Fault} (fails : (s.after k).step.1 = .error fault) :
      ¬(s.after k).step.1.isOk := by
    rw [fails]
    exact Bool.false_ne_true
  cases one with
  | unstarted => cases other with | unstarted => rfl
  | faulted fails =>
    cases other with
    | faulted => rfl
    | failed taken | passed taken | timedOut taken => exact absurd taken (excluded fails)
  | failed taken fails =>
    cases other with
    | faulted fault => exact absurd taken (excluded fault)
    | failed => rfl
    | passed _ unfailed | timedOut _ unfailed => exact absurd fails unfailed
  | passed taken unfailed passes =>
    cases other with
    | faulted fault => exact absurd taken (excluded fault)
    | failed _ fails => exact absurd fails unfailed
    | passed => rfl
    | timedOut _ _ unpassed => exact absurd passes unpassed
  | timedOut taken unfailed unpassed =>
    cases other with
    | faulted fault => exact absurd taken (excluded fault)
    | failed _ fails => exact absurd fails unfailed
    | passed _ _ passes => exact absurd passes unpassed
    | timedOut => rfl

def shown (settings : Settings) (s : System) : Bool :=
  contains s.bus.serial.toList settings.passMarker || contains s.bus.serial.toList settings.failMarker

theorem contains_iff (s : System) (marker : String) :
    contains s.bus.serial.toList marker ↔ Shows s marker := by
  simp only [contains,Shows,Bool.and_eq_true,Bool.not_eq_true',List.isEmpty_eq_false_iff,occursIn_iff]

private theorem contains_nil (marker : String) : contains [] marker = false := by
  simp [contains,occursIn]

/-- What the runner remembers: how much output it has seen, with no marker in it. -/
def Seen (settings : Settings) (s : System) (seen : Nat) : Prop :=
  s.bus.serial.size = seen ∧ shown settings s = false

private theorem serial_of_step {n : Nat} (taken : s.step = (.ok n,t)) :
    ∃ more, t.bus.serial.toList = s.bus.serial.toList ++ more := by
  have told := s.transmits_step.serial
  rw [taken] at told
  exact ⟨_,told⟩

private theorem decided_of_seen {n seen : Nat} (known : Seen settings s seen)
    (taken : s.step = (.ok n,t)) : (decided settings t seen).1 = shown settings t ∧
      (shown settings t = false → Seen settings t (decided settings t seen).2) := by
  obtain ⟨size,unshown⟩ := known
  rw [decided]
  split
  · -- As many bytes as before are the same bytes, for none is ever taken back.
    rename_i still
    obtain ⟨more,told⟩ := serial_of_step taken
    have none : more = [] := by
      have lengths := congrArg List.length told
      simp only [Array.length_toList,List.length_append] at lengths
      exact List.eq_nil_of_length_eq_zero (by omega)
    have same : shown settings t = shown settings s := by
      simp only [shown,told,none,List.append_nil]
    rw [same]
    exact ⟨unshown.symm,fun _ => ⟨still,same.trans unshown⟩⟩
  · exact ⟨rfl,fun unseen => ⟨rfl,unseen⟩⟩

theorem runNarrated_eq_run (listening : Bool) {seen : Nat} (known : Seen settings s seen) (budget : Nat) :
    let watched := s.runNarrated listening budget (decided settings) seen
    (watched.1,watched.2.1) = s.run budget (shown settings) := by
  let narrator : System.Observer (Nat × Array Log.Record) := {
    leaving := fun s (seen,log) =>
      (seen,if listening then log ++ s.narrateStep.map Event.record else log)
    reached := fun s (seen,log) => ((decided settings s seen).1,(decided settings s seen).2,log)}
  let plain : System.Observer Unit := ⟨fun _ _ => (),fun t _ => (shown settings t,())⟩
  have agreeing : System.Agreeing narrator plain fun s w _ => Seen settings s w.1 := by
    intro s t n w v known taken
    obtain ⟨same,rest⟩ := decided_of_seen known taken
    exact ⟨same,fun going => rest (same.symm.trans going)⟩
  obtain ⟨result,state⟩ := System.runUntil_alike agreeing (s.deadline budget) (w := (seen,#[])) () known
  have run : s.run budget (shown settings) = ((System.runUntil plain (s.deadline budget) s ()).1,
      (System.runUntil plain (s.deadline budget) s ()).2.1) := rfl
  rw [run,← result,← state]
  simp only [System.runNarrated]
  split <;> rfl

theorem ends_of_outcome {n : Nat} {result : Except Fault Stop} (begun : s.clock = 0)
    (outcome : System.outcome? (shown settings) settings.maxCycles s n = some result) :
    Ends settings s n (verdict settings result (s.after n)) := by
  cases n with
  | zero =>
    simp only [System.outcome?,begun,Nat.le_zero_eq] at outcome
    split at outcome
    · rename_i late
      cases outcome
      exact .unstarted late
    · cases outcome
  | succ n =>
    have next := s.after_succ n
    simp only [System.outcome?] at outcome
    split at outcome
    · rename_i fails
      cases outcome
      exact .faulted (congrArg Prod.fst fails)
    · rename_i k t taken
      have went : (s.after n).step.1.isOk := by rw [taken]; rfl
      rw [taken] at next
      change s.after (n + 1) = t at next
      rw [← next] at outcome
      split at outcome
      · rename_i found
        cases outcome
        simp only [verdict]
        split
        · rename_i fails
          exact .failed went ((contains_iff _ _).mp fails)
        · rename_i unfailed
          have passes : contains (s.after (n + 1)).bus.serial.toList settings.passMarker := by
            simpa [shown,unfailed] using found
          exact .passed went (fun fails => unfailed ((contains_iff _ _).mpr fails))
            ((contains_iff _ _).mp passes)
      · rename_i unshown
        split at outcome
        · rename_i late
          cases outcome
          refine .timedOut went ?_ ?_ late <;>
          · intro shows
            apply unshown
            simp [shown,(contains_iff _ _).mpr shows]
        · cases outcome

theorem outcome_of_ends {n : Nat} {v : Verdict} (ends : Ends settings s n v) :
    System.outcome? (shown settings) settings.maxCycles s n ≠ none := by
  intro going
  cases ends with
  | unstarted late => simp [System.outcome?,late] at going
  | faulted fails =>
    obtain ⟨taken,-⟩ := System.going_of_outcome going
    rw [fails] at taken
    cases taken
  | failed _ shows | passed _ _ shows =>
    obtain ⟨-,unshown,-⟩ := System.going_of_outcome going
    simp [shown,(contains_iff _ _).mpr shows] at unshown
  | timedOut _ _ _ late =>
    obtain ⟨-,-,early⟩ := System.going_of_outcome going
    omega

private theorem sink_after (attached : s.bus.sink = some s.bus.serial) (n : Nat) :
    (s.after n).bus.sink = some (s.after n).bus.serial := by
  induction n generalizing s with
  | zero => exact attached
  | succ n ih =>
    apply ih
    obtain ⟨⟨-,serial⟩,sink⟩ := s.transmits_step
    rw [attached,Option.map_some,Option.map_some,← serial] at sink
    obtain ⟨bytes,held,same⟩ := Option.map_eq_some_iff.mp sink
    rw [held,Array.toList_inj.mp same]

/-- A run of an image ends after the first step upon which there is a fault, a marker or an end of
the budget, with the verdict that comes first of these; without a budget no step is taken. So does
a run that looks for the markers after every step. The exit code tells the verdict, and the output
is what was sent up to there and a line feed. The budget is a number of 64 bits. -/
theorem verdict_of_first (settings : Settings) (filter : Log.Filter) (image : List UInt8)
    (inRange : settings.maxCycles ≤ System.lastClock) :
    let s := start settings image
    let report := runImage settings filter image
    let watched := s.runNarrated (!filter.ignoresMachine) settings.maxCycles (decided settings) 0
    let always := s.run settings.maxCycles fun t =>
      contains t.bus.serial.toList settings.passMarker || contains t.bus.serial.toList settings.failMarker
    ∃ n v, Ends settings s n v ∧ (∀ k < n, ∀ u, ¬Ends settings s k u) ∧
      verdict settings watched.1 watched.2.1 = v ∧ watched.2.1 = s.after n ∧
      verdict settings always.1 always.2 = v ∧ always.2 = s.after n ∧
      report.exitCode = (match v with
        | .passed => 0 | .failed => 1 | .timedOut => 2 | .faulted => 2) ∧
      report.output = (s.after n).bus.serial.toList ++ [0x0A] := by
  intro s report watched always
  have unseen : Seen settings s 0 := ⟨rfl,by simp [shown,s,start,SystemBus.attachSink,SystemBus.load,contains_nil]⟩
  have same : (watched.1,watched.2.1) = always := runNarrated_eq_run _ unseen settings.maxCycles
  obtain ⟨n,result,run,outcome,before⟩ := s.exists_outcome settings.maxCycles (shown settings)
  have limit : s.deadline settings.maxCycles = settings.maxCycles := by
    simp only [System.deadline,s,start]
    omega
  rw [limit] at outcome before
  have ended : always = (result,s.after n) := run
  rw [ended] at same ⊢
  obtain ⟨found,reached⟩ := Prod.mk.inj same
  have sink : (s.after n).bus.sink = some (s.after n).bus.serial := sink_after rfl n
  refine ⟨n,_,ends_of_outcome rfl outcome,?_,?_,reached,rfl,rfl,?_,?_⟩
  · intro k earlier u ends
    exact outcome_of_ends ends (before k earlier)
  · rw [found,reached]
  · have code : report.exitCode = (verdict settings watched.1 watched.2.1).exitCode := rfl
    rw [code,found,reached]
    cases verdict settings result (s.after n) <;> rfl
  · have output : report.output = (watched.2.1.bus.sink.getD #[]).toList ++ [0x0A] := rfl
    rw [output,reached,sink]
    rfl

/-- No budget is left after the step that sends the marker, which is the one for both verdicts. -/
def ambiguous : Settings :=
  {maxCycles := 40,loadAddress := 0x100,passMarker := "P",failMarker := "P"}

/-- `LD A,'P'`, `LDH (01),A`, `LD A,81`, `LDH (02),A`. -/
def announcing : List UInt8 := [0x3E,0x50,0xE0,0x01,0x3E,0x81,0xE0,0x02]

theorem verdict_of_first_ambiguous :
    Ends ambiguous (start ambiguous announcing) 4 .failed ∧
      (∀ k < 4, ∀ v, ¬Ends ambiguous (start ambiguous announcing) k v) ∧
      (runImage ambiguous ⟨[],none⟩ announcing).exitCode = 1 ∧
      (runImage ambiguous ⟨[],none⟩ announcing).output = [0x50,0x0A] := by
  obtain ⟨n,v,ends,first,-,-,-,-,code,output⟩ :=
    verdict_of_first ambiguous ⟨[],none⟩ announcing (by decide)
  generalize runImage ambiguous ⟨[],none⟩ announcing = report at code output ⊢
  have undecided : ∀ k < 4, System.outcome? (shown ambiguous) 40 (start ambiguous announcing) k = none := by
    decide +kernel
  have before (k : Nat) (below : k < 4) (v : Verdict) : ¬Ends ambiguous (start ambiguous announcing) k v :=
    fun ends => outcome_of_ends ends (undecided k below)
  have taken : ((start ambiguous announcing).after 3).step.1.isOk := by decide +kernel
  have sent : ((start ambiguous announcing).after 4).bus.serial = #[0x50] := by
    have last : ((start ambiguous announcing).after 4).bus.serial =
        #[((start ambiguous announcing).bus.memory.write Address.serialData 0x50).read Address.serialData] := by
      rfl
    rw [last,Memory.read_write,if_pos rfl]
  have marked : Shows ((start ambiguous announcing).after 4) "P" := by
    rw [← contains_iff,sent]
    decide +kernel
  have failed : Ends ambiguous (start ambiguous announcing) 4 .failed := .failed taken marked
  obtain rfl : n = 4 := by
    rcases Nat.lt_trichotomy n 4 with below | same | above
    · exact absurd ends (before n below v)
    · exact same
    · exact absurd failed (first 4 above .failed)
  obtain rfl := ends.unique failed
  rw [sent] at output
  exact ⟨ends,before,code,output⟩

end Sm83.Runner
