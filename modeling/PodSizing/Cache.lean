import PodSizing.Pod.Basic

/-!
# The cache of pods

The pods that the watch of the server has reported. A list of all pods is collected aside and takes
the place of the content when it is complete; single changes act at once.
-/
namespace PodSizing

/-- What tells cached pods apart: a pod without a namespace is none of any namespace. -/
structure CacheKey where
  namespaceName : Option String
  name : String
  deriving DecidableEq, Repr

def Pod.cacheKey (p : Pod) : CacheKey := ⟨p.metadata.namespaceName, p.metadata.name.getD ""⟩

inductive WatchEvent where
  | init
  | initApply (pod : Pod)
  | initDone
  | apply (pod : Pod)
  | delete (pod : Pod)
  deriving DecidableEq

structure Cache where
  pods : List Pod := []
  /-- The list of all pods as far as it has come. -/
  listed : List Pod := []
  deriving DecidableEq, Inhabited

namespace Cache

def without (key : CacheKey) (pods : List Pod) : List Pod := pods.filter fun p => p.cacheKey ≠ key

/-- The pods with one more, instead of one of the same key. -/
def withPod (p : Pod) (pods : List Pod) : List Pod := p :: without p.cacheKey pods

def observe (c : Cache) : WatchEvent → Cache
  | .init => { c with listed := [] }
  | .initApply p => { c with listed := withPod p c.listed }
  | .initDone => ⟨c.listed, []⟩
  | .apply p => { c with pods := withPod p c.pods }
  | .delete p => { c with pods := without p.cacheKey c.pods }

def lookup? (c : Cache) (key : CacheKey) : Option Pod := c.pods.find? fun p => p.cacheKey = key

/-- The pod of a key; where its namespace has none of the name, one without a namespace. -/
def get? (c : Cache) (key : CacheKey) : Option Pod :=
  (c.lookup? key).orElse fun _ => c.lookup? { key with namespaceName := none }

def find? (c : Cache) (id : PodId) : Option Pod := c.get? ⟨some id.namespaceName, id.name⟩

def version? (c : Cache) (id : PodId) : Option String := (c.find? id).bind (·.resourceVersion)

end Cache
end PodSizing
