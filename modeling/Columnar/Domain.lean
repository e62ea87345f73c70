import Columnar.Registry
import Columnar.Value.Basic
/-!
# Labels and poses

Detected things belong to classes, and parts of them are keypoints; both are numbered.  A label
says what a number stands for and in which color it is shown.  A class description gives a
class its label.  Texts, the keypoints of an instance and the class descriptions are
components, and the last make an archetype.

The pose of an instance relative to its parent is a translation, a rotation around an axis, a
rotation by a quaternion and a scale, applied in this order.  Each is a component; together
they make the archetype of poses, one entry per instance.  Coordinates are single precision
numbers, given by their bits.
-/

namespace Columnar

/-- The number of a class. -/
abbrev classId : ValueType := .named "arrowlog.datatypes.ClassId" (.number .uint16)

/-- The number of a kind of keypoint, which means something within its class only. -/
abbrev keypointId : ValueType := .named "arrowlog.datatypes.KeypointId" (.number .uint16)

/-- The type of labels: a number, a text and a color of the form `0xRRGGBBAA`. -/
abbrev label : ValueType :=
  .record "arrowlog.datatypes.AnnotationInfo"
    (.cons "id" (.number .uint16) (.cons "label" .text (.cons "color" (.number .uint32) .nil)))

abbrev Label : Type := label.Datum

namespace Label

/-- A label without a color. -/
def new (id : BitVec 16) (text : String) : Label := (id, text, (0 : BitVec 32), ())

/-- The label in an opaque color. -/
def withRgb (l : Label) (red green blue : BitVec 8) : Label :=
  match l with
  | (id, text, _, ()) => (id, text, red ++ green ++ blue ++ (0xff : BitVec 8), ())

/-- The number of the label. -/
def id (l : Label) : BitVec 16 := l.1

end Label

/-- The type of class descriptions: a class with its label. -/
abbrev classDescription : ValueType :=
  .record "arrowlog.datatypes.ClassDescriptionMapElem"
    (.cons "class_id" classId (.cons "info" label .nil))

abbrev ClassDescription : Type := classDescription.Datum

namespace ClassDescription

/-- The description of the class whose number the label has. -/
def ofLabel (l : Label) : ClassDescription := (l.id, l, ())

/-- The description of a class by number and text. -/
def ofPair (id : BitVec 16) (text : String) : ClassDescription := ofLabel (.new id text)

end ClassDescription

/-- Texts. -/
abbrev textComponent : Component := ⟨"arrowlog.components.Text", .text⟩

/-- The keypoints of one instance, in the order of their points. -/
abbrev keypointIds : Component := ⟨"arrowlog.components.KeypointIds", .collection keypointId⟩

/-- The keypoints with the given numbers. -/
def KeypointIds.ofList (ids : List (BitVec 16)) : keypointIds.Datum := Collection.ofList ids

/-- Class descriptions that numbers are resolved by. -/
abbrev classMap : Component :=
  ⟨"arrowlog.components.AnnotationContext", .collection classDescription⟩

/-- The class map of the given descriptions. -/
def ClassMap.ofList (classes : List ClassDescription) : classMap.Datum :=
  Collection.ofList classes

/-- Class descriptions shared by everything under one path. -/
abbrev classContext : Archetype where
  name := "arrowlog.archetypes.AnnotationContext"
  indicator := "arrowlog.components.AnnotationContextIndicator"
  fields := [⟨"context", classMap⟩]

/-- The context with one class map. -/
def ClassContext.ofClasses (classes : List ClassDescription) : classContext.Value :=
  (.ofList [ClassMap.ofList classes], ())

/-- A single precision number, by its bits. -/
abbrev Float32Bits : Type := BitVec 32

namespace Float32Bits

def zero : Float32Bits := 0x00000000

def one : Float32Bits := 0x3f800000

end Float32Bits

/-- The type of points and vectors in space. -/
abbrev vector3D : ValueType :=
  .record "arrowlog.datatypes.Vec3D"
    (.cons "x" (.number .float32)
      (.cons "y" (.number .float32) (.cons "z" (.number .float32) .nil)))

abbrev Vector3D : Type := vector3D.Datum

namespace Vector3D

def new (x y z : Float32Bits) : Vector3D := (x, y, z, ())

def zero : Vector3D := new .zero .zero .zero

def one : Vector3D := new .one .one .one

/-- The three coordinates. -/
def coordinates : Vector3D → List Float32Bits
  | (x, y, z, ()) => [x, y, z]

end Vector3D

/-- The type of rotations as quaternions, with the real part last. -/
abbrev quaternion : ValueType :=
  .record "arrowlog.datatypes.Quaternion"
    (.cons "x" (.number .float32) (.cons "y" (.number .float32)
      (.cons "z" (.number .float32) (.cons "w" (.number .float32) .nil))))

abbrev Quaternion : Type := quaternion.Datum

namespace Quaternion

/-- The quaternion with the real part given last. -/
def ofXyzw (x y z w : Float32Bits) : Quaternion := (x, y, z, w, ())

/-- The quaternion with the real part given first. -/
def ofWxyz (w x y z : Float32Bits) : Quaternion := (x, y, z, w, ())

/-- No rotation. -/
def identity : Quaternion := ofXyzw .zero .zero .zero .one

end Quaternion

/-- The type of rotations by an angle in radians around an axis. -/
abbrev axisAngle : ValueType :=
  .record "arrowlog.datatypes.RotationAxisAngle"
    (.cons "axis" vector3D (.cons "angle" (.number .float32) .nil))

abbrev AxisAngle : Type := axisAngle.Datum

/-- The rotation around an axis, which need not have length one. -/
def AxisAngle.new (axis : Vector3D) (angle : Float32Bits) : AxisAngle := (axis, angle, ())

/-- Translations of instances. -/
abbrev poseTranslation : Component := ⟨"arrowlog.components.PoseTranslation3D", vector3D⟩

/-- Scales of instances, per axis. -/
abbrev poseScale : Component := ⟨"arrowlog.components.PoseScale3D", vector3D⟩

/-- Rotations of instances by quaternions. -/
abbrev poseQuaternion : Component := ⟨"arrowlog.components.PoseRotationQuat", quaternion⟩

/-- Rotations of instances around axes. -/
abbrev poseAxisAngle : Component := ⟨"arrowlog.components.PoseRotationAxisAngle", axisAngle⟩

namespace PoseTranslation

/-- The translation that moves nothing. -/
def default : poseTranslation.Datum := Vector3D.zero

end PoseTranslation

namespace PoseScale

/-- The scale that changes nothing. -/
def identity : poseScale.Datum := Vector3D.one

/-- The same scale for every axis. -/
def uniform (scale : Float32Bits) : poseScale.Datum := Vector3D.new scale scale scale

end PoseScale

namespace PoseQuaternion

/-- The rotation that turns nothing. -/
def default : poseQuaternion.Datum := Quaternion.identity

end PoseQuaternion

/-- Poses of instances relative to their parent. -/
abbrev instancePoses : Archetype where
  name := "arrowlog.archetypes.InstancePoses3D"
  indicator := "arrowlog.components.InstancePoses3DIndicator"
  fields :=
    [⟨"translations", poseTranslation⟩, ⟨"rotation_axis_angles", poseAxisAngle⟩,
      ⟨"quaternions", poseQuaternion⟩, ⟨"scales", poseScale⟩]

abbrev InstancePoses : Type := instancePoses.Value

namespace InstancePoses

/-- Poses of which nothing is set. -/
def new : InstancePoses := instancePoses.unset

def withTranslations (p : InstancePoses) (values : List poseTranslation.Datum) : InstancePoses :=
  (.ofList values, p.2)

def withAxisAngles (p : InstancePoses) (values : List poseAxisAngle.Datum) : InstancePoses :=
  (p.1, .ofList values, p.2.2)

def withQuaternions (p : InstancePoses) (values : List poseQuaternion.Datum) : InstancePoses :=
  (p.1, p.2.1, .ofList values, p.2.2.2)

def withScales (p : InstancePoses) (values : List poseScale.Datum) : InstancePoses :=
  (p.1, p.2.1, p.2.2.1, .ofList values, p.2.2.2.2)

/-- How many instances are described: the length of the longest field. -/
def count (p : InstancePoses) : Nat :=
  ((instancePoses.columns p).map (·.values.length)).foldl max 0

end InstancePoses

end Columnar
