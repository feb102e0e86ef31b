import PodSizing.Proofs.PodEvent

/-!
# What a change leaves alone

Setting the status annotation, or storing a pod under another version, gives a pod that is the same
but for the status.
-/
namespace PodSizing.Pod

/-- The pod under another version. -/
def withVersion (p : Pod) (version : Option String) : Pod :=
  { p with metadata := { p.metadata with resourceVersion := version } }

theorem withVersion_same (p : Pod) (version : Option String) :
    SameButStatus p (p.withVersion version) := by
  constructor <;> intros <;> rfl

@[simp] theorem withVersion_id (p : Pod) (version : Option String) :
    (p.withVersion version).id = p.id := rfl

theorem container?_congr {a b : Pod} (h : a.spec = b.spec) (name : String) :
    a.container? name = b.container? name := by
  simp only [container?, containers, h]

theorem annotation?_afterSet (p : Pod) (key value k : String) :
    (p.setAnnotation key value).annotation? k = if k = key then some value else p.annotation? k := by
  unfold annotation? setAnnotation
  simp only [Option.bind_some, Keyed.get?_insert]
  cases p.metadata.annotations <;> simp

@[simp] theorem annotation?_afterSet_self (p : Pod) (key value : String) :
    (p.setAnnotation key value).annotation? key = some value := by
  simp [annotation?_afterSet]

theorem setAnnotation_status_same (p : Pod) (value : String) :
    SameButStatus p (p.setAnnotation Key.status value) where
  spec := rfl
  status := rfl
  namespaceName := rfl
  name := rfl
  generateName := rfl
  labels := rfl
  deletionTimestamp := rfl
  other := rfl
  annotations key hkey := by rw [annotation?_afterSet, if_neg hkey]

end PodSizing.Pod
