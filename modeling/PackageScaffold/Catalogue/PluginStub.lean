import PackageScaffold.Catalogue.Line

/-!
# Plugin stubs

The native side of a plugin, one for each platform.
-/

namespace PackageScaffold.Catalogue

/-- The native side for Android. -/
def androidStub : String :=
  lines [
    "package " ++ var "android_package" ++ ";",
    "",
    "import androidx.annotation.NonNull;",
    "",
    "import io.flutter.embedding.engine.plugins.FlutterPlugin;",
    "import io.flutter.plugin.common.MethodCall;",
    "import io.flutter.plugin.common.MethodChannel;",
    "import io.flutter.plugin.common.MethodChannel.MethodCallHandler;",
    "import io.flutter.plugin.common.MethodChannel.Result;",
    "",
    "/** " ++ var "pascal_name" ++ "Plugin */",
    "public class " ++ var "pascal_name" ++
      "Plugin implements FlutterPlugin, MethodCallHandler \x7b",
    "  private MethodChannel channel;",
    "",
    "  @Override",
    "  public void onAttachedToEngine(@NonNull FlutterPluginBinding binding) \x7b",
    "    channel = new MethodChannel(binding.getBinaryMessenger(), \"" ++
      var "project_name" ++ "\");",
    "    channel.setMethodCallHandler(this);",
    "  \x7d",
    "",
    "  @Override",
    "  public void onMethodCall(@NonNull MethodCall call, @NonNull Result result) \x7b",
    "    if (call.method.equals(\"getPlatformVersion\")) \x7b",
    "      result.success(\"Android \" + android.os.Build.VERSION.RELEASE);",
    "    \x7d else \x7b",
    "      result.notImplemented();",
    "    \x7d",
    "  \x7d",
    "",
    "  @Override",
    "  public void onDetachedFromEngine(@NonNull FlutterPluginBinding binding) \x7b",
    "    channel.setMethodCallHandler(null);",
    "  \x7d",
    "\x7d"
  ]

/-- The native side for iOS. -/
def iosStub : String :=
  lines [
    "import Flutter",
    "import UIKit",
    "",
    "public class Swift" ++ var "pascal_name" ++ "Plugin: NSObject, FlutterPlugin \x7b",
    "  public static func register(with registrar: FlutterPluginRegistrar) \x7b",
    "    let channel = FlutterMethodChannel(name: \"" ++ var "project_name" ++
      "\", binaryMessenger: registrar.messenger())",
    "    let instance = Swift" ++ var "pascal_name" ++ "Plugin()",
    "    registrar.addMethodCallDelegate(instance, channel: channel)",
    "  \x7d",
    "",
    "  public func handle(_ call: FlutterMethodCall, result: @escaping FlutterResult) \x7b",
    "    switch call.method \x7b",
    "    case \"getPlatformVersion\":",
    "      result(\"iOS \" + UIDevice.current.systemVersion)",
    "    default:",
    "      result(FlutterMethodNotImplemented)",
    "    \x7d",
    "  \x7d",
    "\x7d"
  ]

/-- The native side for macOS. -/
def macosStub : String :=
  lines [
    "import Cocoa",
    "import FlutterMacOS",
    "",
    "public class " ++ var "pascal_name" ++ "Plugin: NSObject, FlutterPlugin \x7b",
    "  public static func register(with registrar: FlutterPluginRegistrar) \x7b",
    "    let channel = FlutterMethodChannel(name: \"" ++ var "project_name" ++
      "\", binaryMessenger: registrar.messenger)",
    "    let instance = " ++ var "pascal_name" ++ "Plugin()",
    "    registrar.addMethodCallDelegate(instance, channel: channel)",
    "  \x7d",
    "",
    "  public func handle(_ call: FlutterMethodCall, result: @escaping FlutterResult) \x7b",
    "    switch call.method \x7b",
    "    case \"getPlatformVersion\":",
    "      result(\"macOS \" + ProcessInfo.processInfo.operatingSystemVersionString)",
    "    default:",
    "      result(FlutterMethodNotImplemented)",
    "    \x7d",
    "  \x7d",
    "\x7d"
  ]

/-- The implementation for the browser. -/
def webStub : String :=
  lines [
    "import 'package:flutter_web_plugins/flutter_web_plugins.dart';",
    "import 'package:web/web.dart' as web;",
    "",
    "import 'src/" ++ var "project_name" ++ "_platform_interface.dart';",
    "",
    "/// A web implementation of [" ++ var "pascal_name" ++ "Platform].",
    "class " ++ var "pascal_name" ++ "Web extends " ++ var "pascal_name" ++ "Platform \x7b",
    "  /// Constructs a " ++ var "pascal_name" ++ "Web.",
    "  " ++ var "pascal_name" ++ "Web();",
    "",
    "  /// Registers this class as the default instance of [" ++ var "pascal_name" ++
      "Platform].",
    "  static void registerWith(Registrar registrar) \x7b",
    "    " ++ var "pascal_name" ++ "Platform.instance = " ++ var "pascal_name" ++ "Web();",
    "  \x7d",
    "",
    "  @override",
    "  Future<String?> getPlatformVersion() async \x7b",
    "    return web.window.navigator.userAgent;",
    "  \x7d",
    "\x7d"
  ]

/-- The native side for Windows. -/
def windowsStub : String :=
  lines [
    "#include <flutter/method_channel.h>",
    "#include <flutter/plugin_registrar_windows.h>",
    "#include <flutter/standard_method_codec.h>",
    "",
    "#include <memory>",
    "",
    "namespace " ++ var "project_name" ++ " \x7b",
    "",
    "class " ++ var "pascal_name" ++ "Plugin : public flutter::Plugin \x7b",
    " public:",
    "  static void RegisterWithRegistrar(flutter::PluginRegistrarWindows *registrar) \x7b",
    "    auto channel =",
    "        std::make_unique<flutter::MethodChannel<flutter::EncodableValue>>(",
    "            registrar->messenger(), \"" ++ var "project_name" ++ "\",",
    "            &flutter::StandardMethodCodec::GetInstance());",
    "    auto plugin = std::make_unique<" ++ var "pascal_name" ++ "Plugin>();",
    "    channel->SetMethodCallHandler(",
    "        [](const auto &call, auto result) \x7b",
    "          if (call.method_name() == \"getPlatformVersion\") \x7b",
    "            result->Success(flutter::EncodableValue(\"Windows\"));",
    "          \x7d else \x7b",
    "            result->NotImplemented();",
    "          \x7d",
    "        \x7d);",
    "    registrar->AddPlugin(std::move(plugin));",
    "  \x7d",
    "\x7d;",
    "",
    "\x7d  // namespace " ++ var "project_name"
  ]

/-- The native side for Linux. -/
def linuxStub : String :=
  lines [
    "#include <flutter_linux/flutter_linux.h>",
    "#include <sys/utsname.h>",
    "",
    "#define " ++ var "upper_name" ++ "_PLUGIN(obj) (G_TYPE_CHECK_INSTANCE_CAST((obj), " ++
      var "project_name" ++ "_plugin_get_type(), GObject))",
    "",
    "static void method_call_cb(FlMethodChannel* channel, FlMethodCall* method_call,",
    "                           gpointer user_data) \x7b",
    "  g_autoptr(FlMethodResponse) response = nullptr;",
    "  if (strcmp(fl_method_call_get_name(method_call), \"getPlatformVersion\") == 0) \x7b",
    "    struct utsname uname_data = \x7b\x7d;",
    "    uname(&uname_data);",
    "    g_autofree gchar* version = g_strdup_printf(\"Linux %s\", uname_data.version);",
    "    response = " ++
      "FL_METHOD_RESPONSE(fl_method_success_response_new(fl_value_new_string(version)));",
    "  \x7d else \x7b",
    "    response = FL_METHOD_RESPONSE(fl_method_not_implemented_response_new());",
    "  \x7d",
    "  fl_method_call_respond(method_call, response, nullptr);",
    "\x7d",
    "",
    "void " ++ var "project_name" ++
      "_plugin_register_with_registrar(FlPluginRegistrar* registrar) \x7b",
    "  g_autoptr(FlStandardMethodCodec) codec = fl_standard_method_codec_new();",
    "  g_autoptr(FlMethodChannel) channel =",
    "      fl_method_channel_new(fl_plugin_registrar_get_messenger(registrar),",
    "                            \"" ++ var "project_name" ++ "\", FL_METHOD_CODEC(codec));",
    "  fl_method_channel_set_method_call_handler(channel, method_call_cb, nullptr, " ++
      "nullptr);",
    "\x7d"
  ]

end PackageScaffold.Catalogue
