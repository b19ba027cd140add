import Splice.Proofs.Command.Stages
import Splice.Proofs.Config.History
import Splice.Proofs.FileTree.Growth

namespace Splice.Command

open Config Config.Session Outcome Results

variable {w : World} {o : Options} {s : Prepared}

/-- What a command finds: files to which some may have been added, and the configuration of its
root, loaded from the files that were there before. -/
structure Ready (w : World) (s : Prepared) : Prop where
  grown : w.files.Grown (s.files [])
  world : s.session.world = { w with files := s.files [] }
  delivered : ∃ k, s.files = s.setup.files k
  kept : ∃ e, fingerprint w (some s.root) = .ok e.key ∧ s.session.find? e.key = some e

theorem kept_settings {given : Settings} (h : (settings w o).result = .ok given) :
    ∃ e, fingerprint w (some given.root) = .ok e.key ∧ given.session.find? e.key = some e := by
  obtain ⟨root, -, h⟩ := result_bind_ok_iff.mp h
  obtain ⟨e, he, h⟩ := result_bind_ok_iff.mp h
  obtain ⟨level, -, h⟩ := result_bind_ok_iff.mp h
  obtain ⟨file, -, h⟩ := result_bind_ok_iff.mp h
  cases h
  rcases result_get_ok_iff.mp he with ⟨-, ⟨⟩⟩ | hloads
  exact ⟨e, hloads.key, find?_of_loads hloads⟩

/-- No file changes where no handler writes to one. -/
theorem files_of_errors {s : Log.Setup} (h : ∀ d ∈ s.handlers, d.target = .errors)
    (k : Log.Sink) (records : List Log.Record) : s.files k records = k.files := by
  have hhandlers (r : Log.Record) (hs : List Log.Handler) (hs' : ∀ d ∈ hs, d.target = .errors)
      (k : Log.Sink) : (hs.foldl (Log.Handler.deliver r) k).files = k.files := by
    induction hs generalizing k with
    | nil => rfl
    | cons d rest ih =>
        obtain ⟨hd, hrest⟩ := List.forall_mem_cons.mp hs'
        rw [List.foldl_cons, ih hrest, Log.Handler.deliver, hd]
        split <;> rfl
  have hdeliver (r : Log.Record) (k : Log.Sink) : (s.deliver k r).files = k.files := by
    unfold Log.Setup.deliver
    split
    · rfl
    · split
      · split <;> rfl
      · exact hhandlers r _ h k
  unfold Log.Setup.files
  induction records generalizing k with
  | nil => rfl
  | cons r rest ih => rw [List.foldl_cons, ih, hdeliver]

/-- Whatever becomes of the preparation, no file goes and none changes. -/
theorem grown_prepare (w : World) (o : Options) : w.files.Grown (prepare w o).sink.files := by
  have hbefore : (List.foldl Log.Setup.start.deliver (.ofFiles w.files w.clock)
      (settings w o).records).files = w.files :=
    files_of_errors (s := Log.Setup.start) (List.forall_mem_nil _) _ _
  unfold prepare
  dsimp only
  split
  · rw [hbefore]
    exact .refl w.files
  · split
    · exact Log.Setup.grown_left w.files _
    · rename_i hconfigure
      exact Log.Setup.grown_configure hconfigure

theorem ready_of_prepare (h : (prepare w o).result = .ok s) : Ready w s := by
  have hgrown := grown_prepare w o
  unfold prepare at h hgrown
  dsimp only at h hgrown
  split at h
  · cases h
  · rename_i given hgiven
    rw [hgiven] at hgrown
    dsimp only at hgrown
    split at h
    · cases h
    · rename_i hconfigure
      cases h
      rw [hconfigure] at hgrown
      exact ⟨hgrown, rfl, ⟨_, rfl⟩, kept_settings hgiven⟩

/-- The configuration is not loaded again: it is there, or its root is not found any more. -/
theorem Ready.quiet (h : Ready w s) : (s.session.fetching (some s.root)).2.trace = [] := by
  obtain ⟨e, hkey, hkept⟩ := h.kept
  cases hagain : fingerprint s.session.world (some s.root) with
  | error d =>
      rw [Session.fetching, Session.get, hagain]
      rfl
  | ok key =>
      obtain ⟨root, hroot, hkey⟩ := bind_ok_iff.mp hkey
      obtain ⟨root', hroot', hkey'⟩ := bind_ok_iff.mp hagain
      obtain ⟨p, hp, hroot⟩ := bind_ok_iff.mp hroot
      obtain ⟨p', hp', hroot'⟩ := bind_ok_iff.mp hroot'
      rw [h.world] at hp' hroot' hkey'
      have hhome : w.expandHome s.root = .ok p' := hp'
      cases hp.symm.trans hhome
      obtain rfl := h.grown.resolve_unique hroot hroot'
      have hsame : key = e.key := (Except.ok.inj hkey').symm.trans (Except.ok.inj hkey)
      rw [Session.fetching, get_of_kept (hsame ▸ hagain) hkept]
      rfl

end Splice.Command
