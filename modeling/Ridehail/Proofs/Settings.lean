import Mathlib.Data.List.Nodup
import Ridehail.Proofs.Double.Order
import Ridehail.Settings

/-!
# Settings that can be used

A setting is wrong if it is missing though it has no default, if its text cannot
be read, or if what is read is outside the range of the setting.  Settings are
looked at one after the other, and the first one that is refused is reported.
What is said of all of them is therefore put together like the reading itself:
`Environment.Scans` says of a part of the reading that it accepts some settings
and what they then hold, or reports the first of them that is refused, and two
parts that follow each other scan what the one scans and then what the other
scans.

Two settings are accepted without regard to their range.  A number of drivers
may be zero, and a radius of demand may be zero, negative or no number at all.
What is accepted can be used, and what is reported is the first wrong setting,
exactly if the reading stops before it comes to one of the two that is out of
range.

## Main results

* `Environment.Scans.bind` — two parts of the reading that follow each other.
* `Settings.scans_read` — all settings are looked at, in the order of
  `SettingKey.all`.
* `Settings.accepted_usable_iff` — what is accepted, what is reported, and when
  accepted settings are usable and the first wrong one is the one that is
  reported.
-/

namespace Ridehail

/-- A switch, as it is read from text. -/
def readSwitch? (text : String) : Option Bool :=
  if Environment.onTexts.contains (text.map Char.toLower) then some true
  else if Environment.offTexts.contains (text.map Char.toLower) then some false
  else none

/-! ## Settings and their texts -/

namespace SettingKey

/-! ### The order of settings -/

/-- The place of a setting in the order in which they are looked at. -/
def place (key : SettingKey) : Nat := all.idxOf key

theorem place_inj {key other : SettingKey} :
    key.place = other.place ↔ key = other :=
  List.idxOf_inj key.mem_all

theorem place_getElem {i : Nat} (h : i < all.length) : place all[i] = i :=
  List.Nodup.idxOf_getElem (by decide) i h

/-- The first setting with a property has it, and no setting before has it. -/
theorem find?_all_eq_some_iff {p : SettingKey → Bool} {key : SettingKey} :
    all.find? p = some key ↔
      p key = true ∧ ∀ other : SettingKey, other.place < key.place →
        p other = false := by
  rw [List.find?_eq_some_iff_getElem]
  refine and_congr_right fun _ => ⟨?_, fun h => ?_⟩
  · rintro ⟨i, hi, rfl, hbefore⟩ other hother
    obtain ⟨j, hj, rfl⟩ := List.getElem_of_mem other.mem_all
    rw [place_getElem, place_getElem] at hother
    exact (Bool.not_eq_true' _).mp (hbefore j hother)
  · obtain ⟨i, hi, rfl⟩ := List.getElem_of_mem key.mem_all
    refine ⟨i, hi, rfl, fun j hj => (Bool.not_eq_true' _).mpr (h _ ?_)⟩
    rwa [place_getElem, place_getElem]

/-! ### What a text may be -/

/-- Whether a text can be read and is in the range of its setting.  A path or an
address may be any text. -/
def suits : SettingKey → String → Bool
  | .databasePath, _ | .indexUrl, _ | .flagsUrl, _ => true
  | .flagsEnabled, text | .retryNext, text => (readSwitch? text).isSome
  | .port, text => (readWord? 16 text).isSome
  | .staleAfter, text => (readWord? 64 text).isSome
  | .externalTimeout, text | .busCapacity, text | .maxDrivers,
      text | .sweepInterval, text =>
      (readWord? 64 text).any (· ≠ 0)
  | .utcOffset, text =>
      (readInt32? text).any fun m => -Settings.largestOffset ≤ m &&
        m ≤ Settings.largestOffset
  | .searchRadius, text | .demandRadius, text =>
      (Double.readText? text).any (0.0 < ·)

/-- Whether a text is accepted.  The range of two settings is not looked at. -/
def accepts : SettingKey → String → Bool
  | .maxDrivers, text => (readWord? 64 text).isSome
  | .demandRadius, text => (Double.readText? text).isSome
  | key, text => key.suits text

/-- Whether a text is accepted though it is out of range: no drivers at all, or
a radius that is zero, negative or no number. -/
def overlooks : SettingKey → String → Bool
  | .maxDrivers, text => readWord? 64 text = some 0
  | .demandRadius, text => (Double.readText? text).any (¬0.0 < ·)
  | _, _ => false

/-- What does not suit is refused or overlooked. -/
theorem suits_eq (key : SettingKey) (text : String) :
    key.suits text = (key.accepts text && !key.overlooks text) := by
  cases key with
  | maxDrivers =>
      cases h : readWord? 64 text <;> simp [suits, accepts, overlooks, h]
  | demandRadius =>
      cases h : Double.readText? text <;> simp [suits, accepts, overlooks, h]
  | _ => simp [accepts, overlooks]

/-- What is overlooked is accepted. -/
theorem accepts_of_overlooks {key : SettingKey} {text : String}
    (h : key.overlooks text = true) :
    key.accepts text = true := by
  cases key with
  | maxDrivers => exact Option.isSome_iff_exists.2 ⟨0, of_decide_eq_true h⟩
  | demandRadius =>
      obtain ⟨radius, hread, -⟩ := (Option.any_eq_true _ _).1 h
      exact Option.isSome_iff_exists.2 ⟨radius, hread⟩
  | _ => cases h

end SettingKey

namespace Environment

variable {α β : Type} {env : Environment} {key : SettingKey}
  {read? : String → Option α} {default value : α}

/-- Whether a setting fails a judgement on its text.  Of the settings without a
text only the path of the database fails. -/
def fails (env : Environment) (judge : SettingKey → String → Bool)
    (key : SettingKey) : Bool :=
  match env.trimmed? key with
  | some text => !judge key text
  | none => key = .databasePath

/-- Whether a setting is missing, cannot be read, or is out of its range. -/
def wrong (env : Environment) (key : SettingKey) : Bool :=
  env.fails SettingKey.suits key

/-- Whether a setting is refused. -/
def refused (env : Environment) (key : SettingKey) : Bool :=
  env.fails SettingKey.accepts key

/-- Whether a setting is accepted though its value is out of its range. -/
def overlooked (env : Environment) (key : SettingKey) : Bool :=
  (env.trimmed? key).any key.overlooks

/-- The value that a setting is given: what its text reads as, or the
default. -/
def Gives (env : Environment) (key : SettingKey) (read? : String → Option α)
    (default value : α) : Prop :=
  match env.trimmed? key with
  | some text => read? text = some value
  | none => value = default

/-- What a part of the reading does.  Either it accepts some settings and
answers with what they hold, or it reports the first of them that is refused,
and reports it as missing exactly if it has no text. -/
def Scans (env : Environment) (keys : List SettingKey) :
    Except SettingError α → (α → Prop) → Prop
  | .ok a, holds => (∀ key ∈ keys, env.refused key = false) ∧ holds a
  | .error e, _ =>
      keys.find? env.refused = some e.key ∧
        (e = .missing e.key ↔ env.get? e.key = none)

/-! ### Judgements -/

theorem trimmed?_eq_none_iff : env.trimmed? key = none ↔ env.get? key = none :=
  Option.map_eq_none_iff

theorem fails_of_some {judge : SettingKey → String → Bool} {text : String}
    (h : env.trimmed? key = some text) :
    env.fails judge key = !judge key text := by
  rw [fails, h]

theorem fails_of_none {judge : SettingKey → String → Bool}
    (hkey : key ≠ .databasePath) (h : env.trimmed? key = none) :
    env.fails judge key = false := by
  rw [fails, h]
  exact decide_eq_false hkey

/-- A judgement on a text that reads a value and tests it is one on the value
that the setting is given. -/
theorem Gives.fails_eq (h : env.Gives key read? default value)
    (judge : SettingKey → String → Bool) (inRange : α → Bool)
    (hkey : key ≠ .databasePath) (hdefault : inRange default = true)
    (hjudge : ∀ text, judge key text = (read? text).any inRange) :
    env.fails judge key = !inRange value := by
  unfold Gives at h
  cases htext : env.trimmed? key with
  | none =>
      rw [htext] at h
      rw [fails_of_none hkey htext, h, hdefault, Bool.not_true]
  | some text =>
      rw [htext] at h
      rw [fails_of_some htext, hjudge, h, Option.any_some]

/-- The value of an accepted setting whose range is looked at is in it. -/
theorem Gives.inRange (h : env.Gives key read? default value)
    (inRange : α → Bool) (haccepted : env.refused key = false)
    (hkey : key ≠ .databasePath) (hdefault : inRange default = true)
    (haccepts : ∀ text, key.accepts text = (read? text).any inRange) :
    inRange value = true := by
  rw [refused, h.fails_eq _ inRange hkey hdefault haccepts] at haccepted
  exact (Bool.not_eq_false' _).mp haccepted

/-- A setting that any text suits is not refused. -/
theorem refused_of_any (hkey : key ≠ .databasePath)
    (hany : ∀ text, key.accepts text = true) :
    env.refused key = false := by
  unfold refused
  cases htext : env.trimmed? key with
  | none => exact fails_of_none hkey htext
  | some text => rw [fails_of_some htext, hany, Bool.not_true]

/-- Only two settings are ever overlooked. -/
theorem eq_or_eq_of_overlooked (h : env.overlooked key = true) :
    key = .maxDrivers ∨ key = .demandRadius := by
  obtain ⟨text, -, hoverlooks⟩ := (Option.any_eq_true _ _).1 h
  cases key with
  | maxDrivers => exact .inl rfl
  | demandRadius => exact .inr rfl
  | _ => cases hoverlooks

/-- An overlooked setting is accepted. -/
theorem refused_of_overlooked (h : env.overlooked key = true) :
    env.refused key = false := by
  obtain ⟨text, htext, hoverlooks⟩ := (Option.any_eq_true _ _).1 h
  rw [refused, fails_of_some htext, SettingKey.accepts_of_overlooks hoverlooks,
    Bool.not_true]

/-- The wrong settings are those that are refused and those that are
overlooked. -/
theorem wrong_eq (env : Environment) (key : SettingKey) :
    env.wrong key = (env.refused key || env.overlooked key) := by
  unfold wrong refused overlooked
  cases htext : env.trimmed? key with
  | none => simp [fails, htext]
  | some text =>
      rw [fails_of_some htext, fails_of_some htext, SettingKey.suits_eq,
        Bool.not_and, Bool.not_not, Option.any_some]

/-- The first setting that is refused is the first wrong one, exactly if every
setting that is overlooked comes after one that is refused. -/
theorem find?_wrong_eq_some_iff {first : SettingKey}
    (hrefused : SettingKey.all.find? env.refused = some first) :
    SettingKey.all.find? env.wrong = some first ↔
      ∀ key, env.overlooked key = true →
      ∃ earlier : SettingKey, earlier.place < key.place ∧
        env.refused earlier = true := by
  obtain ⟨hfirst, hbefore⟩ := SettingKey.find?_all_eq_some_iff.1 hrefused
  rw [SettingKey.find?_all_eq_some_iff]
  constructor
  · rintro ⟨-, hright⟩ key hkey
    rcases Nat.lt_trichotomy first.place key.place with hlt | heq | hgt
    · exact ⟨first, hlt, hfirst⟩
    · rw [SettingKey.place_inj.1 heq, refused_of_overlooked hkey] at hfirst
      cases hfirst
    · have hnone := hright key hgt
      rw [wrong_eq, hkey, Bool.or_true] at hnone
      cases hnone
  · intro hcovered
    refine ⟨by rw [wrong_eq, hfirst, Bool.true_or], fun key hlt => ?_⟩
    rw [wrong_eq, hbefore key hlt, Bool.false_or, Bool.eq_false_iff]
    -- A setting overlooked before the first would come after one refused even
    -- before.
    intro hkey
    obtain ⟨earlier, hless, hearlier⟩ := hcovered key hkey
    rw [hbefore earlier (hless.trans hlt)] at hearlier
    cases hearlier

/-! ### Parts of the reading -/

section Scans

variable {keys more : List SettingKey} {fault : SettingFault} {P : α → Prop}
  {Q : β → Prop}

theorem scans_pure (a : α) (ha : P a) : env.Scans [] (pure a) P := ⟨by simp, ha⟩

/-- Two parts that follow each other. -/
theorem Scans.bind {x : Except SettingError α} {f : α → Except SettingError β}
    (hx : env.Scans keys x P) (hf : ∀ a, P a → env.Scans more (f a) Q) :
    env.Scans (keys ++ more) (x >>= f) Q := by
  cases x with
  | error e =>
      obtain ⟨hfirst, hmissing⟩ := hx
      exact ⟨by rw [List.find?_append, hfirst, Option.some_or], hmissing⟩
  | ok a =>
      obtain ⟨hkeys, ha⟩ := hx
      have hrest : env.Scans more (f a) Q := hf a ha
      show env.Scans (keys ++ more) (f a) Q
      cases hfa : f a with
      | error e =>
          rw [hfa] at hrest
          obtain ⟨hfirst, hmissing⟩ := hrest
          have hnone : keys.find? env.refused = none :=
            List.find?_eq_none.2 fun key hkey => by simp [hkeys key hkey]
          exact ⟨by rw [List.find?_append, hnone, Option.none_or, hfirst],
            hmissing⟩
      | ok b =>
          rw [hfa] at hrest
          obtain ⟨hmore, hb⟩ := hrest
          exact ⟨List.forall_mem_append.2 ⟨hkeys, hmore⟩, hb⟩

/-- A part that only takes the text of a setting which any text suits. -/
theorem Scans.skip {x : Except SettingError β} (hkey : env.refused key = false)
    (hx : env.Scans keys x Q) : env.Scans (key :: keys) x Q := by
  have hfirst : env.Scans [key] (pure ()) fun _ => True :=
    ⟨by simpa using hkey, trivial⟩
  exact hfirst.bind fun _ _ => hx

/-- A setting without a text has its default. -/
theorem scans_default (hkey : key ≠ .databasePath)
    (htext : env.trimmed? key = none) :
    env.Scans [key] (.ok default) (env.Gives key read? default) := by
  have hrefused : env.refused key = false := fails_of_none hkey htext
  exact ⟨by simpa using hrefused, by rw [Gives, htext]⟩

/-- A text that is accepted. -/
theorem scans_given {text : String} (htext : env.trimmed? key = some text)
    (haccepts : key.accepts text = true) (hread : read? text = some value) :
    env.Scans [key] (.ok value) (env.Gives key read? default) := by
  have hrefused : env.refused key = false := by
    rw [refused, fails_of_some htext, haccepts, Bool.not_true]
  exact ⟨by simpa using hrefused, by rw [Gives, htext]; exact hread⟩

/-- A text that is refused. -/
theorem scans_invalid {text : String} (htext : env.trimmed? key = some text)
    (haccepts : key.accepts text = false) :
    env.Scans [key] (.error (.invalid key fault)) P := by
  have hrefused : env.refused key = true := by
    rw [refused, fails_of_some htext, haccepts, Bool.not_false]
  have hsome : env.get? key ≠ none := fun hnone => by
    rw [trimmed?_eq_none_iff.2 hnone] at htext
    cases htext
  exact ⟨by simp [hrefused, SettingError.key], fun h => (by cases h), fun h =>
    absurd h hsome⟩

/-- A value that is read and tested. -/
theorem scans_checked {inRange : α → Bool} {rangeFault : SettingFault}
    (hkey : key ≠ .databasePath) (hdefault : inRange default = true)
    (haccepts : ∀ text, key.accepts text = (read? text).any inRange) :
    env.Scans [key] (env.valueOr key default fault read? >>=
      within inRange key rangeFault) (env.Gives key read? default) := by
  have hwithin (v : α) : (Except.ok v >>= within inRange key rangeFault) =
      if inRange v then .ok v else .error (.invalid key rangeFault) := rfl
  unfold valueOr
  cases htext : env.trimmed? key with
  | none =>
      dsimp only
      rw [hwithin, if_pos hdefault]
      exact scans_default hkey htext
  | some text =>
      have hjudged := haccepts text
      dsimp only
      cases hread : read? text with
      | none =>
          rw [hread] at hjudged
          exact scans_invalid htext hjudged
      | some v =>
          rw [hread, Option.any_some] at hjudged
          dsimp only
          rw [hwithin]
          cases hrange : inRange v with
          | false => exact scans_invalid htext (hjudged.trans hrange)
          | true => exact scans_given htext (hjudged.trans hrange) hread

/-- A value that is read. -/
theorem scans_valueOr (hkey : key ≠ .databasePath)
    (haccepts : ∀ text, key.accepts text = (read? text).isSome) :
    env.Scans [key] (env.valueOr key default fault read?)
      (env.Gives key read? default) := by
  have hany (text : String) : key.accepts text =
      (read? text).any fun _ => true := by
    rw [haccepts]
    cases read? text <;> rfl
  have hpure : within (fun _ : α => true) key fault = pure := rfl
  rw [← bind_pure (env.valueOr key default fault read?), ← hpure]
  exact scans_checked hkey rfl hany

/-- A switch that is read. -/
theorem scans_switchOr {usual : Bool} (hkey : key ≠ .databasePath)
    (haccepts : ∀ text, key.accepts text = (readSwitch? text).isSome) :
    env.Scans [key] (env.switchOr key usual)
      (env.Gives key readSwitch? usual) := by
  unfold switchOr
  cases htext : env.trimmed? key with
  | none => exact scans_default hkey htext
  | some text =>
      have hjudged := haccepts text
      dsimp only [Option.map_some]
      unfold readSwitch? at hjudged
      by_cases hon : onTexts.contains (text.map Char.toLower) = true
      · rw [if_pos hon] at hjudged ⊢
        exact scans_given htext hjudged (if_pos hon)
      · rw [if_neg hon] at hjudged ⊢
        by_cases hoff : offTexts.contains (text.map Char.toLower) = true
        · rw [if_pos hoff] at hjudged ⊢
          exact scans_given htext hjudged
            (by rw [readSwitch?, if_neg hon, if_pos hoff])
        · rw [if_neg hoff] at hjudged ⊢
          exact scans_invalid htext hjudged

/-- The path, which has no default and may be any text. -/
theorem scans_readPath : env.Scans [.databasePath] (Settings.readPath env)
    fun path => env.get? .databasePath = some path := by
  unfold Settings.readPath
  cases hpath : env.get? .databasePath with
  | none =>
      have hrefused : env.refused .databasePath = true := by
        rw [refused, fails, trimmed?_eq_none_iff.2 hpath]
        rfl
      exact ⟨by simp [hrefused, SettingError.key], fun _ => hpath, fun _ => rfl⟩
  | some path =>
      have hrefused : env.refused .databasePath = false := by
        rw [refused, fails, trimmed?, hpath]
        rfl
      exact ⟨by simpa using hrefused, rfl⟩

end Scans

end Environment

/-! ## All settings -/

/-- The settings of matching are those that are given. -/
structure MatchingPolicy.Given (env : Environment)
    (m : MatchingPolicy) : Prop where
  maxRadiusKm : env.Gives .searchRadius Double.readText? 5.0 m.maxRadiusKm
  maxDrivers : env.Gives .maxDrivers (readWord? 64) 10 m.maxDrivers
  retryNext : env.Gives .retryNext readSwitch? true m.retryNext

/-- The settings of tracking are those that are given. -/
structure TrackingPolicy.Given (env : Environment)
    (t : TrackingPolicy) : Prop where
  staleAfterSeconds : env.Gives .staleAfter (readWord? 64) 600
    t.staleAfterSeconds
  sweepEverySeconds : env.Gives .sweepInterval (readWord? 64) 300
    t.sweepEverySeconds

/-- The settings of pricing are those that are given. -/
structure PricingPolicy.Given (env : Environment)
    (p : PricingPolicy) : Prop where
  utcOffsetMinutes : env.Gives .utcOffset readInt32? 0 p.utcOffsetMinutes
  demandRadiusKm : env.Gives .demandRadius Double.readText? 2.0 p.demandRadiusKm

namespace Settings

variable {env : Environment} {s : Settings}

/-- All settings are those that are given. -/
structure Given (env : Environment) (s : Settings) : Prop where
  port : env.Gives .port (readWord? 16) 8080 s.port
  databasePath : env.get? .databasePath = some s.databasePath
  indexUrl : s.indexUrl = env.filled? .indexUrl
  flagsUrl : s.flagsUrl = env.filled? .flagsUrl
  flagsEnabled : env.Gives .flagsEnabled readSwitch? false s.flagsEnabled
  externalTimeoutMs : env.Gives .externalTimeout (readWord? 64) 2000
    s.externalTimeoutMs
  busCapacity : env.Gives .busCapacity (readWord? 64) 1024 s.busCapacity
  matching : s.matching.Given env
  tracking : s.tracking.Given env
  pricing : s.pricing.Given env

/-! ### Reading them -/

section Reading

open Environment

theorem scans_readMatching :
    env.Scans [.searchRadius, .maxDrivers, .retryNext] (readMatching env)
    (·.Given env) := by
  unfold readMatching
  rw [← bind_assoc]
  refine (scans_checked (by decide) (by decide) fun _ => rfl).bind
    fun radius hradius => ?_
  refine (scans_valueOr (by decide) fun _ => rfl).bind
    fun drivers hdrivers => ?_
  refine (scans_switchOr (by decide) fun _ => rfl).bind fun retry hretry => ?_
  exact scans_pure _ ⟨hradius, hdrivers, hretry⟩

theorem scans_readTracking :
    env.Scans [.staleAfter, .sweepInterval] (readTracking env)
    (·.Given env) := by
  unfold readTracking
  refine (scans_valueOr (by decide) fun _ => rfl).bind fun stale hstale => ?_
  rw [← bind_assoc]
  refine (scans_checked (by decide) (by decide) fun _ => rfl).bind
    fun sweep hsweep => ?_
  exact scans_pure _ ⟨hstale, hsweep⟩

theorem scans_readPricing :
    env.Scans [.utcOffset, .demandRadius] (readPricing env) (·.Given env) := by
  unfold readPricing
  rw [← bind_assoc]
  refine (scans_checked (by decide) (by decide) fun _ => rfl).bind
    fun offset hoffset => ?_
  refine (scans_valueOr (by decide) fun _ => rfl).bind fun radius hradius => ?_
  exact scans_pure _ ⟨hoffset, hradius⟩

/-- All settings are looked at in their order.  If none is refused they are
those that are given, and otherwise the first that is refused is reported. -/
theorem scans_read (env : Environment) :
    env.Scans SettingKey.all (read env) (·.Given env) := by
  unfold read
  refine (scans_valueOr (by decide) fun _ => rfl).bind fun port hport => ?_
  refine scans_readPath.bind fun path hpath => ?_
  refine Scans.skip (refused_of_any (by decide) fun _ => rfl) ?_
  refine Scans.skip (refused_of_any (by decide) fun _ => rfl) ?_
  refine (scans_switchOr (by decide) fun _ => rfl).bind
    fun enabled henabled => ?_
  rw [← bind_assoc]
  refine (scans_checked (by decide) (by decide) fun _ => rfl).bind
    fun time htime => ?_
  rw [← bind_assoc]
  refine (scans_checked (by decide) (by decide) fun _ => rfl).bind
    fun bus hbus => ?_
  refine scans_readMatching.bind fun matching hmatching => ?_
  refine scans_readTracking.bind fun tracking htracking => ?_
  refine scans_readPricing.bind fun pricing hpricing => ?_
  exact scans_pure _
    ⟨hport, hpath, rfl, rfl, henabled, htime, hbus, hmatching,
      htracking, hpricing⟩

end Reading

/-! ### Settings one can work with -/

/-- Settings one can work with. -/
structure Usable (s : Settings) : Prop where
  externalTimeout : 1 ≤ s.externalTimeoutMs
  busCapacity : 1 ≤ s.busCapacity
  sweepInterval : 1 ≤ s.tracking.sweepEverySeconds
  maxDrivers : 1 ≤ s.matching.maxDrivers
  utcOffset : -840 ≤ s.pricing.utcOffsetMinutes ∧
    s.pricing.utcOffsetMinutes ≤ 840
  searchRadius : 0.0 < s.matching.maxRadiusKm ∧
    s.matching.maxRadiusKm.isNaN = false
  demandRadius : 0.0 < s.pricing.demandRadiusKm ∧
    s.pricing.demandRadiusKm.isNaN = false

/-- Of accepted settings only the two whose range is not looked at can be
unusable. -/
theorem Given.usable_iff (h : s.Given env)
    (haccepted : ∀ key, env.refused key = false) :
    s.Usable ↔ 1 ≤ s.matching.maxDrivers ∧ 0.0 < s.pricing.demandRadiusKm := by
  refine ⟨fun hs => ⟨hs.maxDrivers, hs.demandRadius.1⟩,
    fun ⟨hdrivers, hdemand⟩ => ?_⟩
  have hpositive {key : SettingKey} {default n : Nat}
      (hkey : key ≠ .databasePath)
      (hgives : env.Gives key (readWord? 64) default n) (hdefault : default ≠ 0)
      (haccepts : ∀ text, key.accepts text = (readWord? 64 text).any (· ≠ 0)) :
        1 ≤ n := by
    have hn :=
      hgives.inRange (· ≠ 0) (haccepted key) hkey
        (decide_eq_true hdefault) haccepts
    exact Nat.one_le_iff_ne_zero.2 (of_decide_eq_true hn)
  have hoffset := h.pricing.utcOffsetMinutes.inRange
    (fun m => -largestOffset ≤ m && m ≤ largestOffset) (haccepted _) (by decide)
    rfl fun _ => rfl
  have hradius := h.matching.maxRadiusKm.inRange (0.0 < ·) (haccepted _)
    (by decide) (by decide) fun _ => rfl
  have hlargest : largestOffset = 840 := rfl
  have hsearch := of_decide_eq_true hradius
  exact {
    externalTimeout :=
      hpositive (by decide) h.externalTimeoutMs (by decide) fun _ => rfl
    busCapacity := hpositive (by decide) h.busCapacity (by decide) fun _ => rfl
    sweepInterval :=
      hpositive (by decide) h.tracking.sweepEverySeconds (by decide) fun _ =>
        rfl
    maxDrivers := hdrivers
    utcOffset := by
      simpa only [Bool.and_eq_true, decide_eq_true_eq, hlargest] using hoffset
    searchRadius := ⟨hsearch, (Double.isNaN_of_lt hsearch).2⟩
    demandRadius := ⟨hdemand, (Double.isNaN_of_lt hdemand).2⟩ }

/-- Accepted settings can be used exactly if none of them was overlooked. -/
theorem Given.usable_iff_not_overlooked (h : s.Given env)
    (haccepted : ∀ key, env.refused key = false) :
    s.Usable ↔ ∀ key, env.overlooked key = false := by
  have hwrong (key : SettingKey) :
      env.overlooked key = env.fails SettingKey.suits key := by
    rw [← Environment.wrong, Environment.wrong_eq, haccepted key, Bool.false_or]
  have hdrivers : env.overlooked .maxDrivers = false ↔
      1 ≤ s.matching.maxDrivers := by
    rw [hwrong, Nat.one_le_iff_ne_zero,
      h.matching.maxDrivers.fails_eq SettingKey.suits (· ≠ 0) (by decide)
        (by decide) fun _ => rfl]
    simp
  have hdemand : env.overlooked .demandRadius = false ↔
      0.0 < s.pricing.demandRadiusKm := by
    rw [hwrong,
      h.pricing.demandRadiusKm.fails_eq SettingKey.suits (0.0 < ·) (by decide)
      (by decide) fun _ => rfl]
    simp
  rw [h.usable_iff haccepted, ← hdrivers, ← hdemand]
  refine ⟨fun hnone key => Bool.eq_false_iff.2 fun hkey => ?_, fun hnone =>
    ⟨hnone _, hnone _⟩⟩
  rcases Environment.eq_or_eq_of_overlooked hkey with rfl | rfl
  · exact absurd hkey (Bool.eq_false_iff.1 hnone.1)
  · exact absurd hkey (Bool.eq_false_iff.1 hnone.2)

/-- Accepted settings are those that are given, and none of them is refused. -/
theorem given_of_read (h : read env = .ok s) :
    s.Given env ∧ ∀ key, env.refused key = false := by
  have hscans := scans_read env
  rw [h] at hscans
  obtain ⟨hkeys, hgiven⟩ := hscans
  exact ⟨hgiven, fun key => hkeys key key.mem_all⟩

/-- The error names the first setting that is refused. -/
theorem first_of_read {e : SettingError} (h : read env = .error e) :
    SettingKey.all.find? env.refused = some e.key ∧
      (e = .missing e.key ↔ env.get? e.key = none) := by
  have hscans := scans_read env
  rw [h] at hscans
  exact hscans

/-- Settings are accepted exactly if none of them is refused. -/
theorem exists_read_iff :
    (∃ s, read env = .ok s) ↔ ∀ key, env.refused key = false := by
  refine ⟨fun ⟨s, hread⟩ => (given_of_read hread).2, fun haccepted => ?_⟩
  cases hread : read env with
  | ok s => exact ⟨s, rfl⟩
  | error e =>
      have hrefused := List.find?_some (first_of_read hread).1
      rw [haccepted] at hrefused
      cases hrefused

theorem exists_error_of_find? {first : SettingKey}
    (h : SettingKey.all.find? env.refused = some first) :
    ∃ e, read env = .error e ∧ e.key = first := by
  cases hread : read env with
  | ok s =>
      have hrefused := List.find?_some h
      rw [(given_of_read hread).2] at hrefused
      cases hrefused
  | error e =>
      exact ⟨e, rfl, Option.some.inj ((first_of_read hread).1.symm.trans h)⟩

/-- Only the texts of the settings matter. -/
theorem read_congr {other : Environment}
    (h : ∀ key, other.get? key = env.get? key) :
    read other = read env := by
  have htrimmed (key : SettingKey) : other.trimmed? key = env.trimmed? key := by
    rw [Environment.trimmed?, Environment.trimmed?, h]
  simp only [read, readPath, readMatching, readTracking, readPricing,
    Environment.valueOr, Environment.switchOr, Environment.filled?, h, htrimmed]

/-! ### What is accepted and what is reported -/

/-- What reading settings comes to.  Settings are accepted if none of them is
refused.  They are those that are given then, and usable if drivers are looked
for at all and the radius of demand is positive.  Otherwise the first setting
that is refused is reported, as missing if it is that.  Texts that belong to no
setting do not matter.

Accepted settings are usable and the first wrong setting is the one that is
reported, exactly if each setting that is overlooked comes after one that is
refused. -/
theorem accepted_usable_iff (env : Environment) :
    ((∃ s, read env = .ok s) ↔ ∀ key, env.refused key = false) ∧
    (∀ s, read env = .ok s → s.Given env ∧
      (s.Usable ↔ 1 ≤ s.matching.maxDrivers ∧ 0.0 < s.pricing.demandRadiusKm)) ∧
    (∀ e, read env = .error e → SettingKey.all.find? env.refused = some e.key ∧
      (e = .missing e.key ↔ env.get? e.key = none)) ∧
    (∀ other : Environment, (∀ key, other.get? key = env.get? key) →
      read other = read env) ∧
    (((∀ s, read env = .ok s → s.Usable) ∧
        ∀ e, read env = .error e →
          SettingKey.all.find? env.wrong = some e.key) ↔
      ∀ key, env.overlooked key = true →
        ∃ earlier : SettingKey, earlier.place < key.place ∧
          env.refused earlier = true) := by
  refine ⟨exists_read_iff, fun s hread => ?_, fun e hread =>
    first_of_read hread, fun other h => read_congr h, ?_⟩
  · obtain ⟨hgiven, haccepted⟩ := given_of_read hread
    exact ⟨hgiven, hgiven.usable_iff haccepted⟩
  · cases hread : read env with
    | ok s =>
        obtain ⟨hgiven, haccepted⟩ := given_of_read hread
        have hcovered :
            (∀ key, env.overlooked key = true → ∃ earlier : SettingKey,
            earlier.place < key.place ∧ env.refused earlier = true) ↔
            ∀ key, env.overlooked key = false := by
          simp [haccepted]
        rw [hcovered, ← hgiven.usable_iff_not_overlooked haccepted]
        refine ⟨fun hclaim => hclaim.1 s rfl, fun hs => ⟨?_, nofun⟩⟩
        rintro s ⟨⟩
        exact hs
    | error e =>
        rw [← Environment.find?_wrong_eq_some_iff (first_of_read hread).1]
        refine ⟨fun hclaim => hclaim.2 e rfl, fun hfirst => ⟨nofun, ?_⟩⟩
        rintro e ⟨⟩
        exact hfirst

namespace Example

/-- Settings with a sign, blanks and another case, and a text that belongs to no
setting. -/
def city : Environment :=
  [ ("DATABASE_PATH", "/var/lib/rides.db"), ("FEATURE_FLAGS_ENABLED", " Yes"),
    ("LOG_LEVEL", "info"), ("MATCHING_MAX_DRIVERS", "+4 "),
    ("SURGE_DEMAND_RADIUS_KM", "inf") ]

/-- No driver is to be considered, and the radius in which to look for demand is
no number. -/
def stranded : Environment :=
  [ ("DATABASE_PATH", "/var/lib/rides.db"), ("MATCHING_MAX_DRIVERS", "0"),
    ("SURGE_DEMAND_RADIUS_KM", "NaN") ]

/-- The same, and no time to wait for an answer, which is looked at before
that. -/
def hasty : Environment := ("EXTERNAL_TIMEOUT_MS", "0") :: stranded

/-- The same, and no time between two sweeps, which is looked at after the
drivers. -/
def restless : Environment := ("STALE_SWEEP_INTERVAL_SECS", "0") :: stranded

end Example

/-- The settings of a city are usable, whatever else the environment holds.  Of
the wrong settings of the hasty environment the first one is reported. -/
theorem accepted_usable_iff_example :
    (∃ s, read Example.city = .ok s ∧ s.Usable ∧ s.matching.maxDrivers = 4 ∧
      read (("HOME", "/root") :: Example.city) = .ok s) ∧
    ∃ e, read Example.hasty = .error e ∧ e.key = .externalTimeout ∧
      SettingKey.all.find? Example.hasty.wrong = some e.key := by
  constructor
  · obtain ⟨haccepted, -, -, hunread, hclaim⟩ :=
      accepted_usable_iff Example.city
    have hnone (key : SettingKey) : Example.city.overlooked key = false := by
      cases key <;> decide +kernel
    obtain ⟨s, hread⟩ := haccepted.2 fun key => by cases key <;> decide +kernel
    have hother : read (("HOME", "/root") :: Example.city) =
        read Example.city :=
      hunread _ fun key => by cases key <;> rfl
    have hdrivers : (read Example.city).toOption.map (·.matching.maxDrivers) =
        some 4 := by
      decide +kernel
    rw [hread] at hdrivers
    refine ⟨s, hread, (hclaim.2 fun key hkey => ?_).1 s hread,
      Option.some.inj hdrivers, hother.trans hread⟩
    rw [hnone key] at hkey
    cases hkey
  · have hplace : SettingKey.externalTimeout.place <
        SettingKey.maxDrivers.place ∧
        SettingKey.externalTimeout.place < SettingKey.demandRadius.place := by
      decide
    have hreported : SettingKey.all.find? Example.hasty.refused =
        some .externalTimeout := by
      decide +kernel
    have hrefused : Example.hasty.refused .externalTimeout = true :=
      List.find?_some hreported
    obtain ⟨e, hread, hkey⟩ := exists_error_of_find? hreported
    obtain ⟨-, -, -, -, hclaim⟩ := accepted_usable_iff Example.hasty
    refine ⟨e, hread, hkey, (hclaim.2 fun key hover => ?_).2 e hread⟩
    rcases Environment.eq_or_eq_of_overlooked hover with rfl | rfl
    · exact ⟨.externalTimeout, hplace.1, hrefused⟩
    · exact ⟨.externalTimeout, hplace.2, hrefused⟩

/-- Settings by which no driver is ever considered, with a radius that is no
number, are accepted.  If a later setting is refused, that one is reported. -/
theorem stranded_accepted :
    (∃ s, read Example.stranded = .ok s ∧ s.matching.maxDrivers = 0 ∧
      s.pricing.demandRadiusKm.isNaN = true ∧ ¬s.Usable) ∧
    ∃ e, read Example.restless = .error e ∧ e.key = .sweepInterval ∧
      SettingKey.all.find? Example.restless.wrong = some .maxDrivers := by
  constructor
  · obtain ⟨s, hread⟩ := exists_read_iff.2 fun key =>
      (by cases key <;> decide +kernel : Example.stranded.refused key = false)
    have hvalues : (read Example.stranded).toOption.map
        (fun s => (s.matching.maxDrivers, s.pricing.demandRadiusKm.isNaN)) =
        some (0, true) := by
      decide +kernel
    rw [hread] at hvalues
    obtain ⟨hdrivers, hradius⟩ := Prod.mk.inj (Option.some.inj hvalues)
    refine ⟨s, hread, hdrivers, hradius, fun hs => ?_⟩
    have hpositive := hs.maxDrivers
    omega
  · have hreported : SettingKey.all.find? Example.restless.refused =
        some .sweepInterval := by
      decide +kernel
    obtain ⟨e, hread, hkey⟩ := exists_error_of_find? hreported
    exact ⟨e, hread, hkey, by decide +kernel⟩

end Settings

end Ridehail
