import LiminalDB.Field.ViewRuns
import LiminalDB.Foundations.Purge

/-! # What LQL does not disturb

Commands of LQL work on views, variants and seeds, and none of these feeds back into the cells, the links, the
tokens, the journal or the clock: a run makes the same of the field itself without them. Commands that only read
can be left out of a run, and nothing that comes after can tell (`queries_do_not_disturb`). -/

namespace LiminalDB

variable {F : Type}

/-- Commands that only read. -/
def LqlAst.reads : LqlAst F → Bool
  | .select .. | .introspectModel _ | .introspectInfluence _ | .introspectTension _ | .introspectEpochs _
  | .introspectEpoch _ | .variants .. | .reflexStatus => true
  | _ => false

/-- Commands that set up the reflex feedback. -/
def LqlAst.setsReflex : LqlAst F → Bool
  | .reflexOn | .reflexOff | .reflexTune _ => true
  | _ => false

/-- The call only reads. -/
def QueryCall.reads : QueryCall F → Bool
  | .lql _ ast => ast.reads
  | _ => false

/-- The call matters for the field itself. -/
def QueryCall.moves : QueryCall F → Bool
  | .lql _ ast => ast.setsReflex
  | .tick .. | .field .. | .recordReflexSnapshot .. => true
  | .upsertVariant _ | .registerPendulum _ | .observeVariant .. | .plantSeed .. | .abortSeed _ => false

section Undisturbed

variable [FloatLike F] {platform : Platform F} {exp : F → F}

/-- Planting seeds touches the garden alone. -/
theorem plantVariantSeeds_toReflexField (field : QueryField F) (variantId : String) :
    (field.plantVariantSeeds variantId).2.toReflexField = field.toReflexField := by
  unfold QueryField.plantVariantSeeds
  split
  · rfl
  · rfl

/-- A command that only reads leaves everything as it is. -/
theorem execLql_of_reads (visits : LqlVisits F) (field : QueryField F) {ast : LqlAst F} (hast : ast.reads = true) :
    (field.execLql platform exp visits ast).2 = field := by
  cases ast with
  | select pattern windowMs filter => rfl
  | introspectModel topN => rfl
  | introspectInfluence topN => rfl
  | introspectTension topN => rfl
  | introspectEpochs topN => rfl
  | introspectEpoch id => rfl
  | variants limit minProbability => rfl
  | reflexStatus => rfl
  | _ => cases hast

/-- A command that does not set up the reflex feedback leaves the field itself as it is. -/
theorem execLql_toReflexField (visits : LqlVisits F) (field : QueryField F) {ast : LqlAst F}
    (hast : ast.setsReflex = false) :
    (field.execLql platform exp visits ast).2.toReflexField = field.toReflexField := by
  cases ast with
  | commit variantId =>
      simp only [QueryField.execLql]
      split
      · rfl
      · exact plantVariantSeeds_toReflexField _ variantId
  | pivot source target reason =>
      simp only [QueryField.execLql]
      split <;> rfl
  | defuse pendulumId drain =>
      simp only [QueryField.execLql]
      split <;> rfl
  -- The only commands that reach into the field itself are excluded.
  | reflexOn => cases hast
  | reflexOff => cases hast
  | reflexTune cfg => cases hast
  | _ => rfl

/-- What `commit` makes of the variants when there is none of the name. -/
theorem VariantManifold.commit_of_none {manifold manifold' : VariantManifold F} {variantId : String}
    {nowMs : UInt64} (h : manifold.commit variantId nowMs = (none, manifold')) :
    manifold' = manifold := by
  unfold commit at h
  split at h
  · exact (Prod.mk.inj h).2.symm
  · cases (Prod.mk.inj h).1

/-- A pivot that finds nothing changes nothing. -/
theorem VariantManifold.pivot_of_none {manifold manifold' : VariantManifold F} {source target : String}
    {nowMs : UInt64} (h : manifold.pivot source target nowMs = (none, manifold')) : manifold' = manifold := by
  unfold pivot at h
  split at h
  · exact (Prod.mk.inj h).2.symm
  · split at h
    · exact (Prod.mk.inj h).2.symm
    · split at h
      · exact (Prod.mk.inj h).2.symm
      · cases (Prod.mk.inj h).1

/-- Neither does a defusing that finds nothing. -/
theorem VariantManifold.defuse_of_none {manifold manifold' : VariantManifold F} {pendulumId : String}
    {reduction : F} (h : manifold.defuse pendulumId reduction = (none, manifold')) : manifold' = manifold := by
  unfold defuse at h
  split at h
  · exact (Prod.mk.inj h).2.symm
  · cases (Prod.mk.inj h).1

/-- A command that fails leaves everything as it is. -/
theorem execLql_of_error {visits : LqlVisits F} {field : QueryField F} {ast : LqlAst F} {error : LqlError}
    (h : (field.execLql platform exp visits ast).1 = .error error) :
    (field.execLql platform exp visits ast).2 = field := by
  cases ast with
  | commit variantId =>
      simp only [QueryField.execLql] at h ⊢
      split at h
      · rename_i hcommit
        rw [VariantManifold.commit_of_none hcommit]
      · cases h
  | pivot source target reason =>
      simp only [QueryField.execLql] at h ⊢
      split at h
      · rename_i hpivot
        rw [VariantManifold.pivot_of_none hpivot]
      · cases h
  | defuse pendulumId drain =>
      simp only [QueryField.execLql] at h ⊢
      split at h
      · rename_i hdefuse
        rw [VariantManifold.defuse_of_none hdefuse]
      · cases h
  | _ => cases h

namespace Session

variable {session session' : Session F} {c : QueryCall F}

/-- A call adds to the log and does not read it. -/
theorem call_eq (session : Session F) (c : QueryCall F) :
    session.call platform exp c =
      ⟨(call platform exp ⟨session.field, []⟩ c).field,
        session.log ++ (call platform exp ⟨session.field, []⟩ c).log⟩ := by
  cases c with
  | lql visits ast => rfl
  | tick visits variation dtMs => rfl
  | recordReflexSnapshot neighbors snapshot =>
      simp only [call]
      split <;> simp
  | _ => simp [call]

/-- What calls add to the log does not depend on what is there. -/
theorem foldl_call_eq (session : Session F) (calls : List (QueryCall F)) :
    calls.foldl (call platform exp) session =
      ⟨(calls.foldl (call platform exp) ⟨session.field, []⟩).field,
        session.log ++ (calls.foldl (call platform exp) ⟨session.field, []⟩).log⟩ := by
  induction calls generalizing session with
  | nil => simp
  | cons c calls ih =>
      rw [List.foldl_cons, List.foldl_cons, ih, ih (call platform exp ⟨session.field, []⟩ c), call_eq session c,
        List.append_assoc]

/-- A call that does not matter for the field itself leaves it alone. -/
theorem call_toReflexField_of_not_moves (hc : c.moves = false) :
    (session.call platform exp c).field.toReflexField = session.field.toReflexField := by
  cases c with
  | lql visits ast => exact execLql_toReflexField visits session.field hc
  | tick visits variation dtMs => cases hc
  | field call still => cases hc
  | recordReflexSnapshot neighbors snapshot => cases hc
  | _ => rfl

/-- What any other call makes of the field itself depends on nothing else. -/
theorem call_toReflexField_congr (hc : c.moves = true)
    (h : session.field.toReflexField = session'.field.toReflexField) :
    (session.call platform exp c).field.toReflexField = (session'.call platform exp c).field.toReflexField := by
  cases c with
  | lql visits ast =>
      have hc : ast.setsReflex = true := hc
      cases ast with
      | reflexOn => simp only [call, QueryField.execLql, h]
      | reflexOff => simp only [call, QueryField.execLql, h]
      | reflexTune cfg => simp only [call, QueryField.execLql, h]
      | _ => cases hc
  | tick visits variation dtMs => simp only [call, QueryField.tickAll, h]
  | field call still => simp only [Session.call, h]
  | recordReflexSnapshot neighbors snapshot =>
      simp only [call, h]
      split <;> simp only [h]
  | _ => cases hc

/-- A call that reads leaves the field as it was. -/
theorem call_field_of_reads (hc : c.reads = true) : (session.call platform exp c).field = session.field := by
  cases c with
  | lql visits ast => exact execLql_of_reads visits session.field hc
  | _ => cases hc

end Session

/-- In any run, the field itself, with its cells, links, tokens, counters, journal, clock and reflexes, is what
the run makes of it without views, variants, seeds and the commands that are not about the reflex feedback.
Commands that only read can be left out: the field and all its parts are the same without them, and so is
whatever is logged after. And a command that fails changes nothing. -/
theorem queries_do_not_disturb (platform : Platform F) (exp : F → F) (calls : List (QueryCall F)) :
    let session := Session.run platform exp calls
    let quiet := Session.run platform exp (calls.filter fun c => !c.reads)
    session.field.toReflexField = (Session.run platform exp (calls.filter QueryCall.moves)).field.toReflexField ∧
      session.field = quiet.field ∧
      (∀ later : List (QueryCall F), ∃ logged : List (Logged F),
        (later.foldl (Session.call platform exp) session).log = session.log ++ logged ∧
          (later.foldl (Session.call platform exp) quiet).log = quiet.log ++ logged) ∧
      ∀ visits ast error, (session.field.execLql platform exp visits ast).1 = .error error →
        (session.field.execLql platform exp visits ast).2 = session.field := by
  intro session quiet
  have hfield : session.field = quiet.field := by
    refine purge_foldl Session.field (fun c => !c.reads) ?_ ?_ calls rfl
    · intro s c hc
      exact Session.call_field_of_reads (by simpa using hc)
    · intro s s' c _ hs
      rw [Session.call_eq s, Session.call_eq s', hs]
  -- Both erasures are runs without the calls that leave the observed part alone.
  refine ⟨?_, hfield, fun later => ?_, fun visits ast error h => execLql_of_error h⟩
  · exact @purge_foldl _ _ _ (Session.call platform exp) (fun s => s.field.toReflexField) QueryCall.moves
      (fun _ _ hc => Session.call_toReflexField_of_not_moves hc)
      (fun _ _ _ hc hs => Session.call_toReflexField_congr hc hs) calls ⟨.new, []⟩ ⟨.new, []⟩ rfl
  · refine ⟨(later.foldl (Session.call platform exp) ⟨session.field, []⟩).log, ?_, ?_⟩
    · rw [Session.foldl_call_eq session]
    · rw [Session.foldl_call_eq quiet, hfield]

end Undisturbed

end LiminalDB
